import AnnotatedShader.Proofs.Grammar.Text
import AnnotatedShader.Proofs.Statement.Interpretation
import AnnotatedShader.Proofs.Token.Cut

set_option autoImplicit false

/-!
# Parsing

A text has statements exactly when its tokens can be derived and every tree has a meaning.  Its
statements are then the meanings of the phrases, one after the other, with comments in between.

`Derives` relates a text to the trees of its phrases: its tokens but comments, in the rules of the
grammar.  The trees are unique, and their positions and names are those of tokens (`Derives.from_`),
so the statements stand in the order of the text (`Derives.sorted`).  Comments are sorted in among
them by position (`filter_inOrder`).

`parse_eq_ok_iff` is the form that other files use.  For texts with numbers that can be read, the
relation is the whole story; `ReadableText` is what is asked of a text for that.
-/

namespace AnnotatedShader

open Grammar

namespace Grammar

/-! ## Trees and their tokens -/

/-- The numbers and names of an attribute are among some tokens. -/
def AttributeTree.From (ts : List Token) : AttributeTree → Prop
  | .bare name => name ∈ ts ∧ name.terminal = .identifier
  | .call _ argument => argument ∈ ts ∧ argument.terminal = .integer

/-- The numbers and the attribute of a property are among some tokens. -/
structure PropertyTree.From (ts : List Token) (p : PropertyTree) : Prop where
  size : ∀ size, p.type.size = some size → size ∈ ts ∧ size.terminal = .integer
  attr : ∀ a ∈ p.attr.toList, a.From ts

/-- The numbers, attributes and values of a statement are among some tokens. -/
structure StatementTree.From (ts : List Token) (t : StatementTree) : Prop where
  sizes : ∀ p ∈ t.properties, ∀ size, p.type.size = some size → size ∈ ts ∧ size.terminal = .integer
  attributes : ∀ a ∈ t.attributes, a.From ts
  values : ∀ e ∈ t.entries, e.value ∈ ts ∧ e.value.terminal ∈ valueTerminals

theorem AttributeTree.From.mono {us ts : List Token} {a : AttributeTree} (h : a.From us)
    (hsub : us ⊆ ts) : a.From ts := by
  cases a <;> exact ⟨hsub h.1, h.2⟩

theorem PropertyTree.From.mono {us ts : List Token} {p : PropertyTree} (h : p.From us)
    (hsub : us ⊆ ts) : p.From ts where
  size size hsize := ⟨hsub (h.size size hsize).1, (h.size size hsize).2⟩
  attr a ha := (h.attr a ha).mono hsub

theorem Sequence.exists_of_mem {α : Type} {rule : List Token → α → Prop} {ts : List Token}
    {as : List α} (h : Sequence rule ts as) {a : α} (ha : a ∈ as) : ∃ us, us ⊆ ts ∧ rule us a := by
  induction h with
  | nil => simp at ha
  | cons hfirst _ ih =>
    rcases List.mem_cons.mp ha with rfl | ha
    · exact ⟨_, List.subset_append_left _ _, hfirst⟩
    · obtain ⟨us, hsub, hr⟩ := ih ha
      exact ⟨us, fun t ht => List.mem_append_right _ (hsub ht), hr⟩

theorem DerivesAttribute.from_ {ts : List Token} {attr : Option AttributeTree}
    (h : DerivesAttribute ts attr) : ∀ a ∈ attr.toList, a.From ts := by
  cases h with
  | absent => simp
  | bare _ hname => simp [AttributeTree.From, hname]
  | call _ _ _ hargument => simp [AttributeTree.From, hargument]

theorem DerivesProperty.from_ {ts : List Token} {p : PropertyTree} (h : DerivesProperty ts p) :
    p.From ts := by
  cases h with
  | @property us as type name semicolon attr htype hname hattr hsemicolon =>
    refine ⟨?_, fun a ha => (hattr.from_ a ha).mono fun t ht => by simp [ht]⟩
    intro size hsize
    cases htype with
    | type _ _ hsizePart =>
      cases hsizePart with
      | absent => simp at hsize
      | present _ hinteger =>
        obtain rfl := Option.some.inj hsize
        exact ⟨by simp, hinteger⟩

theorem DerivesEntry.from_ {ts : List Token} {e : EntryTree} (h : DerivesEntry ts e) :
    e.value ∈ ts ∧ e.value.terminal ∈ valueTerminals := by
  cases h with
  | entry _ _ _ hvalue => exact ⟨by simp, hvalue⟩

theorem DerivesStruct.from_ {ts : List Token} {name : String} {attr : Option AttributeTree}
    {fields : List PropertyTree} (h : DerivesStruct ts (name, attr, fields)) :
    (∀ a ∈ attr.toList, a.From ts) ∧ ∀ p ∈ fields, p.From ts := by
  cases h with
  | struct _ _ hattr _ hfields =>
    refine ⟨fun a ha => (hattr.from_ a ha).mono fun t ht => by simp [ht], ?_⟩
    intro p hp
    obtain ⟨us, hsub, hderives⟩ := hfields.exists_of_mem hp
    exact hderives.from_.mono fun t ht => by simp [hsub ht]

theorem DerivesStateBlock.from_ {ts : List Token} {entries : List EntryTree}
    (h : DerivesStateBlock ts entries) :
    ∀ e ∈ entries, e.value ∈ ts ∧ e.value.terminal ∈ valueTerminals := by
  cases h with
  | block _ hentries =>
    intro e he
    obtain ⟨us, hsub, hderives⟩ := hentries.exists_of_mem he
    exact ⟨by simp [hsub hderives.from_.1], hderives.from_.2⟩

theorem DerivesStatement.from_ {ts : List Token} {t : StatementTree} (h : DerivesStatement ts t) :
    t.From ts := by
  have hstruct : ∀ {word : Token} {us : List Token} {name : String} {attr : Option AttributeTree}
      {fields : List PropertyTree}, DerivesStruct us (name, attr, fields) →
      (∀ p ∈ fields, p.From (word :: us)) ∧
        ∀ a ∈ attr.toList ++ fields.flatMap fun p => p.attr.toList, a.From (word :: us) := by
    intro word us name attr fields hderives
    obtain ⟨hattr, hfields⟩ := hderives.from_
    refine ⟨fun p hp => (hfields p hp).mono (List.subset_cons_self _ _), ?_⟩
    intro a ha
    rcases List.mem_append.mp ha with ha | ha
    · exact (hattr a ha).mono (List.subset_cons_self _ _)
    · obtain ⟨p, hp, ha⟩ := List.mem_flatMap.mp ha
      exact ((hfields p hp).attr a ha).mono (List.subset_cons_self _ _)
  cases h with
  | @statement word w us tree hword hbehind =>
    have hsub : us ⊆ word :: us := List.subset_cons_self _ _
    cases hbehind with
    | use =>
      constructor <;>
        simp [StatementTree.properties, StatementTree.attributes, StatementTree.entries]
    | buffer hderives | vertexFormat hderives =>
      obtain ⟨hfields, hattributes⟩ := hstruct hderives
      exact ⟨fun p hp => (hfields p hp).size, hattributes, by simp [StatementTree.entries]⟩
    | constant hderives | output hderives =>
      have hp := hderives.from_.mono hsub
      exact ⟨by simpa [StatementTree.properties] using hp.size, hp.attr,
        by simp [StatementTree.entries]⟩
    | pipeline _ hblock | blendFunc _ hblock =>
      refine ⟨by simp [StatementTree.properties], by simp [StatementTree.attributes], ?_⟩
      intro e he
      obtain ⟨hmem, hvalue⟩ := hblock.from_ e he
      exact ⟨by simp [hmem], hvalue⟩
    | blendFuncAlone =>
      constructor <;>
        simp [StatementTree.properties, StatementTree.attributes, StatementTree.entries]

end Grammar

namespace Statement

open Lexer (Cut)

/-! ## Derivations of a text -/

/-- The tokens that the grammar speaks of: neither blanks nor comments. -/
def significant (ts : List Token) : List Token :=
  ts.filter fun t => t.terminal ≠ .blank ∧ t.terminal ≠ .comment

/-- The tokens of a text derive phrases. -/
def Derives (text : String) (ps : List Phrase) : Prop :=
  ∃ ts, Cut .start text.toList ts ∧ DerivesText (significant ts) ps

/-- A text in which no integer and no attribute has a number with too many digits. -/
structure ReadableText (text : String) : Prop where
  integers : ∀ ts, Cut .start text.toList ts →
    ∀ t ∈ ts, t.terminal = .integer → HasReadableInteger t
  orders : ∀ ps, Derives text ps → ∀ p ∈ ps, ∀ name, .bare name ∈ p.tree.attributes →
    ∀ digits, SpellsOrder name.text digits → digits.length ≤ Number.digitLimit

variable {file text : String} {ts : List Token} {ps : List Phrase}

theorem grammarTokens_visible (ts : List Token) :
    grammarTokens (Lexer.visible ts) = significant ts := by
  rw [grammarTokens, Lexer.visible, List.filter_filter, significant]
  refine List.filter_congr fun t _ => ?_
  by_cases hcomment : t.terminal = .comment <;> simp [hcomment]

/-- The phrases that are read are those that are derived. -/
theorem phrasesOfScan_eq_ok_iff (file : String) :
    phrasesOfScan file (Lexer.scan text) = .ok ps ↔ Derives text ps := by
  have hread : phrasesOfScan file (Lexer.scan text) = .ok ps ↔
      (Lexer.scan text).stop = none ∧
        phrases (grammarTokens (Lexer.scan text).tokens) = .ok ps := by
    simp only [phrasesOfScan]
    cases phrases (grammarTokens (Lexer.scan text).tokens) with
    | error stuck =>
      obtain ⟨expected, rest⟩ := stuck
      cases rest <;> cases (Lexer.scan text).stop <;> simp
    | ok qs => cases (Lexer.scan text).stop <;> simp
  rw [hread, phrases_eq_ok_iff]
  constructor
  · rintro ⟨hstop, hderives⟩
    obtain ⟨ts, hcut, htokens⟩ := Lexer.scan_stop_eq_none_iff.mp hstop
    exact ⟨ts, hcut, by rwa [htokens, grammarTokens_visible] at hderives⟩
  · rintro ⟨ts, hcut, hderives⟩
    have hscan := Lexer.scan_of_cut hcut
    rw [hscan]
    exact ⟨rfl, by rwa [grammarTokens_visible]⟩

theorem Derives.unique {qs : List Phrase} (hp : Derives text ps) (hq : Derives text qs) :
    ps = qs := by
  obtain ⟨ts, hcut, hp⟩ := hp
  obtain ⟨ts', hcut', hq⟩ := hq
  obtain rfl := hcut.unique hcut'
  exact hp.unique hq

section Derived

variable (h : Derives text ps)

include h

theorem Derives.tokens_ne_nil {p : Phrase} (hp : p ∈ ps) : p.tokens ≠ [] := by
  obtain ⟨ts, hcut, hderives⟩ := h
  obtain ⟨us, _, hphrase⟩ := hderives.exists_of_mem hp
  rw [hphrase.1]
  exact hphrase.ne_nil

/-- The trees of a text are made of its tokens. -/
theorem Derives.from_ {p : Phrase} (hp : p ∈ ps) :
    ∃ ts, Cut .start text.toList ts ∧ p.tree.From ts := by
  obtain ⟨ts, hcut, hderives⟩ := h
  obtain ⟨us, hsub, hphrase⟩ := hderives.exists_of_mem hp
  have hsub : us ⊆ ts := fun t ht => (List.mem_filter.mp (hsub ht)).1
  obtain ⟨hsizes, hattributes, hvalues⟩ := hphrase.2.from_
  exact ⟨ts, hcut, fun p hp size hsize => ⟨hsub (hsizes p hp size hsize).1,
    (hsizes p hp size hsize).2⟩, fun a ha => (hattributes a ha).mono hsub,
    fun e he => ⟨hsub (hvalues e he).1, (hvalues e he).2⟩⟩

theorem Derives.spelled {p : Phrase} (hp : p ∈ ps) : p.tree.Spelled := by
  obtain ⟨ts, hcut, hfrom⟩ := h.from_ hp
  refine ⟨?_, fun e he => (hfrom.values e he).2⟩
  intro name hname
  obtain ⟨hmem, hterminal⟩ := hfrom.attributes _ hname
  exact hcut.isNameChar hmem hterminal

theorem Derives.readable (htext : ReadableText text) {p : Phrase} (hp : p ∈ ps) :
    p.tree.Readable := by
  obtain ⟨ts, hcut, hfrom⟩ := h.from_ hp
  refine ⟨?_, ?_, ?_⟩
  · intro q hq size hsize
    obtain ⟨hmem, hterminal⟩ := hfrom.sizes q hq size hsize
    exact htext.integers ts hcut size hmem hterminal
  · intro a ha
    have hown := hfrom.attributes a ha
    cases a with
    | bare name => exact htext.orders ps h p hp name ha
    | call name argument => exact htext.integers ts hcut argument hown.1 hown.2
  · intro e he hterminal
    exact htext.integers ts hcut e.value (hfrom.values e he).1 hterminal

/-- Phrases stand in the order of their positions. -/
theorem Derives.sorted : (ps.map Phrase.start).Pairwise fun a b => a.le b = true := by
  obtain ⟨ts, hcut, hderives⟩ := h
  have htokens : ((significant ts).map Token.position).Pairwise fun a b => a.le b = true :=
    List.pairwise_map.mpr (hcut.sorted.2.sublist List.filter_sublist)
  refine htokens.sublist ?_
  generalize significant ts = us at hderives
  clear hcut htokens
  induction hderives with
  | nil => exact .slnil
  | @cons us vs p ps hfirst _ ih =>
    obtain ⟨t, rest, rfl⟩ := List.exists_cons_of_ne_nil hfirst.ne_nil
    have hstart : p.start = t.position := by simp [Phrase.start, hfirst.1]
    rw [List.map_cons, hstart, List.cons_append, List.map_cons, List.map_append]
    exact (ih.trans (List.sublist_append_right _ _)).cons_cons _

end Derived

/-- A short text has no long numbers. -/
theorem readableText_of_length_le (h : text.toList.length ≤ Number.digitLimit) :
    ReadableText text where
  integers ts hcut t ht _ := by
    have hlength := hcut.length_le ht
    have hunsigned : (Number.unsigned t.text.toList).length ≤ t.text.toList.length := by
      unfold Number.unsigned
      split <;> simp_all
    exact hunsigned.trans (hlength.trans h)
  orders ps hderives p hp name hname digits hspells := by
    obtain ⟨ts, hcut, hfrom⟩ := hderives.from_ hp
    have hlength := hcut.length_le (hfrom.attributes _ hname).1
    rw [hspells.1, List.length_append] at hlength
    omega

/-! ## Statements and comments -/

/-- Whether a statement is a comment. -/
def isComment (s : Statement) : Bool :=
  match s.body with
  | .comment _ => true
  | _ => false

/-- Phrases mean no comments. -/
theorem isComment_of_means {p : Phrase} {s : Statement} (h : p.Means s) : s.isComment = false := by
  obtain ⟨position, body⟩ := s
  obtain ⟨_, hbody⟩ := h
  generalize p.tree = tree at hbody
  cases hbody <;> rfl

section Order

variable (ss : List Statement)

theorem le_position_trans (a b c : Statement) (hab : a.position.le b.position = true)
    (hbc : b.position.le c.position = true) : a.position.le c.position = true :=
  Position.le_trans hab hbc

theorem le_position_total (a b : Statement) :
    (a.position.le b.position || b.position.le a.position) = true :=
  Position.le_total a.position b.position

theorem pairwise_inOrder : (inOrder ss).Pairwise fun a b => a.position.le b.position = true :=
  List.pairwise_mergeSort le_position_trans le_position_total ss

/-- Statements of a kind that are sorted already keep their order among others. -/
theorem filter_inOrder_of_sorted {kind : Statement → Bool}
    (hsorted : (ss.filter kind).Pairwise fun a b => a.position.le b.position = true) :
    (inOrder ss).filter kind = ss.filter kind := by
  have hsublist : (ss.filter kind).Sublist (inOrder ss) :=
    List.sublist_mergeSort le_position_trans le_position_total hsorted List.filter_sublist
  have hfilter := hsublist.filter kind
  rw [List.filter_filter, List.filter_congr (fun _ _ => Bool.and_self _)] at hfilter
  exact (hfilter.eq_of_length ((List.mergeSort_perm _ _).filter _).length_eq.symm).symm

end Order

/-- Among comments sorted statements keep their order. -/
theorem filter_inOrder {ss comments : List Statement}
    (hsorted : ss.Pairwise fun a b => a.position.le b.position = true)
    (hss : ∀ s ∈ ss, s.isComment = false) (hcomments : ∀ s ∈ comments, s.isComment = true) :
    (inOrder (ss ++ comments)).filter (fun s => !s.isComment) = ss := by
  have hkept : (ss ++ comments).filter (fun s => !s.isComment) = ss := by
    rw [List.filter_append, List.filter_eq_self.mpr (by simpa using hss),
      List.filter_eq_nil_iff.mpr (by simpa using hcomments), List.append_nil]
  rw [filter_inOrder_of_sorted _ (by rwa [hkept]), hkept]

/-! ## Parsing -/

/-- The statements of a text are found when its phrases have meanings. -/
theorem parse_eq_ok_iff {ss : List Statement} : parse file text = .ok ss ↔
    ∃ ps, Derives text ps ∧ ∃ found, ofPhrases file ps = .ok found ∧
      ss = inOrder (found ++ commentsApart ps (Lexer.scan text).tokens) := by
  simp only [← phrasesOfScan_eq_ok_iff file, parse]
  cases phrasesOfScan file (Lexer.scan text) with
  | error d => simp
  | ok ps =>
    simp only [bind_eq_ok_iff, Except.ok.injEq]
    constructor
    · rintro ⟨found, hfound, rfl⟩
      exact ⟨ps, rfl, found, hfound, rfl⟩
    · rintro ⟨_, rfl, found, hfound, rfl⟩
      exact ⟨found, hfound, rfl⟩

/-- A text of gaps has no statements. -/
theorem parse_of_gaps (h : ∀ c ∈ text.toList, Lexer.isGap c = true) : parse file text = .ok [] := by
  obtain ⟨ts, hcut, hvisible⟩ := Lexer.exists_cut_of_gaps h
  have hsignificant : significant ts = [] := by rw [← grammarTokens_visible, hvisible]; rfl
  refine parse_eq_ok_iff.mpr ⟨[], ⟨ts, hcut, hsignificant ▸ .nil⟩, [], rfl, ?_⟩
  simp [Lexer.scan_of_cut hcut, hvisible, commentsApart, inOrder]

/-- A text whose numbers have not too many digits has statements exactly when its tokens derive
phrases, none with a negative array size or with an argument behind another name than `Order`.  They
derive no others then, and the statements that are no comments are, in order, what the phrases mean,
each at the position of its first token. -/
theorem parse_spec (file : String) {text : String} (htext : ReadableText text) :
    ((∃ ss, parse file text = .ok ss) ↔
      ∃ ps, Derives text ps ∧ ∀ p ∈ ps, p.tree.Admissible) ∧
    ∀ ss, parse file text = .ok ss →
      ∃ ps, Derives text ps ∧ (∀ qs, Derives text qs → qs = ps) ∧
        List.Forall₂ Phrase.Means ps (ss.filter fun s => !s.isComment) := by
  have hfound : ∀ {ps}, Derives text ps → ∀ found, ofPhrases file ps = .ok found ↔
      List.Forall₂ Phrase.Means ps found := fun h found =>
    ofPhrases_eq_ok_iff (fun _ => h.tokens_ne_nil) (fun _ => h.readable htext) (fun _ => h.spelled)
  constructor
  · simp only [parse_eq_ok_iff]
    constructor
    · rintro ⟨ss, ps, hderives, found, hps, -⟩
      refine ⟨ps, hderives, fun p hp => ?_⟩
      obtain ⟨s, _, hs⟩ := exists_right_of_forall₂ ((hfound hderives found).mp hps) hp
      exact (StatementTree.exists_means_iff (hderives.spelled hp)).mp ⟨s.body, hs.body⟩
    · rintro ⟨ps, hderives, hadmissible⟩
      obtain ⟨found, hps⟩ : ∃ found, List.Forall₂ Phrase.Means ps found := by
        refine exists_forall₂_iff.mpr fun p hp => ?_
        obtain ⟨b, hb⟩ :=
          (StatementTree.exists_means_iff (hderives.spelled hp)).mpr (hadmissible p hp)
        obtain ⟨first, rest, htokens⟩ :=
          List.exists_cons_of_ne_nil (hderives.tokens_ne_nil hp)
        exact ⟨⟨first.position, b⟩, ⟨first, rest, htokens, rfl⟩, hb⟩
      exact ⟨_, ps, hderives, found, (hfound hderives found).mpr hps, rfl⟩
  · intro ss hss
    obtain ⟨ps, hderives, found, hps, rfl⟩ := parse_eq_ok_iff.mp hss
    have hmeans := (hfound hderives found).mp hps
    have hsorted : (found.map Statement.position).Pairwise fun a b => a.le b = true := by
      have hpositions : found.map Statement.position = ps.map Phrase.start := by
        refine map_eq_of_forall₂ hmeans fun p s hs => ?_
        obtain ⟨first, rest, htokens, hposition⟩ := hs.position
        simp [Phrase.start, htokens, hposition]
      rw [hpositions]
      exact hderives.sorted
    refine ⟨ps, hderives, fun qs hqs => hqs.unique hderives, ?_⟩
    rw [filter_inOrder (List.pairwise_map.mp hsorted)]
    · exact hmeans
    · intro s hs
      obtain ⟨p, _, hp⟩ := exists_left_of_forall₂ hmeans hs
      exact isComment_of_means hp
    · intro s hs
      obtain ⟨t, _, rfl⟩ := List.mem_map.mp hs
      rfl

/-- A struct with a slot and an array, and a comment behind it. -/
def lampText : String := "const struct Lamp : ORDER_2 { float[4] Glow; }\n# tail"

theorem parse_spec_lamp :
    ReadableText lampText ∧ ∃ ss ps, parse "Lamp" lampText = .ok ss ∧ ps.length = 1 ∧
      Derives lampText ps ∧ List.Forall₂ Phrase.Means ps (ss.filter fun s => !s.isComment) := by
  have htext : ReadableText lampText := readableText_of_length_le (by decide +kernel)
  obtain ⟨hparse, hmeans⟩ := parse_spec "Lamp" htext
  have hread : ((phrasesOfScan "Lamp" (Lexer.scan lampText)).toOption.any fun ps =>
      ps.length = 1 ∧ ∀ p ∈ ps, (∀ q ∈ p.tree.properties, ∀ size ∈ q.type.size,
        0 ≤ Number.intOfDigits size.text.toList) ∧ p.tree.attributes.length = 1 ∧
          ∀ a ∈ p.tree.attributes, a = .bare ⟨.identifier, "ORDER_2", ⟨1, 21⟩⟩) = true := by
    decide +kernel
  obtain ⟨ps, hps, hchecked⟩ := exists_eq_ok_of_any hread
  obtain ⟨hlength, hchecked⟩ := of_decide_eq_true hchecked
  have hderives := (phrasesOfScan_eq_ok_iff "Lamp").mp hps
  obtain ⟨ss, hss⟩ := hparse.mpr ⟨ps, hderives, fun p hp => ⟨(hchecked p hp).1, by
    intro name argument hmem
    simpa using (hchecked p hp).2.2 _ hmem⟩⟩
  obtain ⟨qs, hqs, hunique, hforall⟩ := hmeans ss hss
  obtain rfl := hunique ps hderives
  exact ⟨htext, ss, ps, hss, hlength, hderives, hforall⟩

end Statement

end AnnotatedShader
