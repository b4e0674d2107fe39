import AnnotatedShader.Proofs.Grammar.Text

set_option autoImplicit false

/-!
# Errors at the earliest point

A reader is prompt when it stops as soon as it can: the tokens that it has taken begin a tree, and
what it does depends on no token but the next one.  The questions that a reader asks come behind the
tokens that it has taken, so a question that fails leaves the place of the error where it was.

`Prompt` says this of a reader and the rule that it is for, and there is one lemma for each way to
put readers together: a token that is needed, a question, a choice by the next token, a repetition.
The rule of a chain of readers is what is left of a rule when its first tokens have been taken, so
the lemma for a rule is a walk along its reader.

For whole texts this gives the viable prefix property (`phrases_stuck_viable`): the tokens in front
of an error can be completed to a text of the grammar (`Viable`), and with the token at the error
they cannot.
-/

namespace AnnotatedShader.Grammar

variable {α β : Type}

/-- Tokens with which a tree can start. -/
def Begins (rule : List Token → α → Prop) (used : List Token) : Prop :=
  ∃ more a, rule (used ++ more) a

/-- A reader that takes the tokens of a tree, or is stuck behind tokens that begin one, and does so
whatever follows the next token. -/
structure Prompt (rule : List Token → α → Prop) (reader : Reader α) : Prop where
  start : Begins rule []
  ok : ∀ ts a rest, reader ts = .ok (a, rest) → ∃ used, ts = used ++ rest ∧ rule used a ∧
    ∀ rest', front rest' = front rest → reader (used ++ rest') = .ok (a, rest')
  stuck : ∀ ts e rest, reader ts = .error ⟨e, rest⟩ → ∃ used, ts = used ++ rest ∧
    Begins rule used ∧
      ∀ rest', front rest' = front rest → reader (used ++ rest') = .error ⟨e, rest'⟩

theorem front_append {rest rest' : List Token} (used : List Token) (h : front rest' = front rest) :
    front (used ++ rest') = front (used ++ rest) := by
  cases used with
  | nil => exact h
  | cons => rfl

theorem exists_cons_of_front {ts : List Token} {terminal : Terminal} (h : front ts = terminal)
    (hend : terminal ≠ .endOfInput) : ∃ t rest, ts = t :: rest := by
  cases ts with
  | nil => exact absurd h.symm hend
  | cons t rest => exact ⟨t, rest, rfl⟩

theorem ask_eq_error_iff {expected e : List Terminal} {ts rest : List Token} :
    ask expected ts = .error ⟨e, rest⟩ ↔ front ts ∉ expected ∧ e = expected ∧ rest = ts := by
  unfold ask
  split <;> simp_all [eq_comm]

namespace Prompt

variable {rule : List Token → α → Prop}

/-! ## Chains -/

/-- Nothing more is to be read. -/
theorem done {a : α} (h : rule [] a) : Prompt rule fun ts => .ok (a, ts) where
  start := ⟨[], a, h⟩
  ok ts b rest hok := by
    obtain ⟨rfl, rfl⟩ := Prod.mk.inj (Except.ok.inj hok)
    exact ⟨[], rfl, h, fun _ _ => rfl⟩
  stuck ts e rest hstuck := by contradiction

/-- A reader and what is read behind its tree. -/
theorem bind {first : List Token → β → Prop} {reader : Reader β}
    {f : β × List Token → Except Stuck (α × List Token)} (hfirst : Prompt first reader)
    (hrest : ∀ us b, first us b → Prompt (fun vs a => rule (us ++ vs) a) fun ts => f (b, ts)) :
    Prompt rule fun ts => reader ts >>= f where
  start := by
    obtain ⟨us, b, hb⟩ := hfirst.start
    obtain ⟨vs, a, ha⟩ := (hrest us b hb).start
    exact ⟨us ++ vs, a, ha⟩
  ok ts a rest hok := by
    obtain ⟨⟨b, mid⟩, hread, hmore⟩ := bind_eq_ok_iff.mp hok
    obtain ⟨us, rfl, hb, hsame⟩ := hfirst.ok _ _ _ hread
    obtain ⟨vs, rfl, ha, hsame'⟩ := (hrest us b hb).ok _ _ _ hmore
    refine ⟨us ++ vs, (List.append_assoc _ _ _).symm, ha, fun rest' hfront => ?_⟩
    rw [List.append_assoc]
    exact bind_eq_ok_iff.mpr
      ⟨(b, vs ++ rest'), hsame _ (front_append vs hfront), hsame' rest' hfront⟩
  stuck ts e rest hstuck := by
    rcases bind_eq_error_iff.mp hstuck with hread | ⟨⟨b, mid⟩, hread, hmore⟩
    · obtain ⟨us, rfl, ⟨more, b, hb⟩, hsame⟩ := hfirst.stuck _ _ _ hread
      obtain ⟨vs, a, ha⟩ := (hrest (us ++ more) b hb).start
      refine ⟨us, rfl, ⟨more ++ vs, a, by simpa using ha⟩, fun rest' hfront => ?_⟩
      exact bind_eq_error_iff.mpr (.inl (hsame rest' hfront))
    · obtain ⟨us, rfl, hb, hsame⟩ := hfirst.ok _ _ _ hread
      obtain ⟨vs, rfl, ⟨more, a, ha⟩, hsame'⟩ := (hrest us b hb).stuck _ _ _ hmore
      refine ⟨us ++ vs, (List.append_assoc _ _ _).symm, ⟨more, a, by simpa using ha⟩,
        fun rest' hfront => ?_⟩
      rw [List.append_assoc]
      exact bind_eq_error_iff.mpr
        (.inr ⟨(b, vs ++ rest'), hsame _ (front_append vs hfront), hsame' rest' hfront⟩)

theorem imp {rule' : List Token → α → Prop} {reader : Reader α} (h : Prompt rule reader)
    (himp : ∀ us a, rule us a → rule' us a) : Prompt rule' reader where
  start := by
    obtain ⟨more, a, ha⟩ := h.start
    exact ⟨more, a, himp _ _ ha⟩
  ok ts a rest hok := by
    obtain ⟨used, heq, ha, hsame⟩ := h.ok ts a rest hok
    exact ⟨used, heq, himp _ _ ha, hsame⟩
  stuck ts e rest hstuck := by
    obtain ⟨used, heq, ⟨more, a, ha⟩, hsame⟩ := h.stuck ts e rest hstuck
    exact ⟨used, heq, ⟨more, a, himp _ _ ha⟩, hsame⟩

/-- A question in front of a reader. -/
theorem ask {reader : Reader α} (expected : List Terminal) (h : Prompt rule reader) :
    Prompt rule fun ts => Grammar.ask expected ts >>= fun _ => reader ts where
  start := h.start
  ok ts a rest hok := by
    obtain ⟨_, hask, hread⟩ := bind_eq_ok_iff.mp hok
    obtain ⟨used, rfl, ha, hsame⟩ := h.ok _ _ _ hread
    refine ⟨used, rfl, ha, fun rest' hfront => ?_⟩
    rw [ask_eq_ok_iff, ← front_append used hfront] at hask
    exact bind_eq_ok_iff.mpr ⟨(), ask_of_mem hask, hsame rest' hfront⟩
  stuck ts e rest hstuck := by
    rcases bind_eq_error_iff.mp hstuck with hask | ⟨_, hask, hread⟩
    · obtain ⟨hfront, rfl, rfl⟩ := ask_eq_error_iff.mp hask
      refine ⟨[], rfl, h.start, fun rest' hsame => bind_eq_error_iff.mpr (.inl ?_)⟩
      exact ask_eq_error_iff.mpr ⟨by rwa [List.nil_append, hsame], rfl, rfl⟩
    · obtain ⟨used, rfl, hbegins, hsame⟩ := h.stuck _ _ _ hread
      refine ⟨used, rfl, hbegins, fun rest' hfront => ?_⟩
      rw [ask_eq_ok_iff, ← front_append used hfront] at hask
      exact bind_eq_error_iff.mpr (.inr ⟨(), ask_of_mem hask, hsame rest' hfront⟩)

/-- A choice by the next token. -/
theorem by_front {reader : Reader α} (h : ∀ terminal, ∃ reader' : Reader α, Prompt rule reader' ∧
    ∀ ts, front ts = terminal → reader ts = reader' ts) : Prompt rule reader where
  start := by
    obtain ⟨_, hprompt, _⟩ := h .endOfInput
    exact hprompt.start
  ok ts a rest hok := by
    obtain ⟨reader', hprompt, hsame⟩ := h (front ts)
    rw [hsame ts rfl] at hok
    obtain ⟨used, rfl, ha, hagain⟩ := hprompt.ok _ _ _ hok
    refine ⟨used, rfl, ha, fun rest' hrest => ?_⟩
    rw [hsame _ (front_append used hrest), hagain rest' hrest]
  stuck ts e rest hstuck := by
    obtain ⟨reader', hprompt, hsame⟩ := h (front ts)
    rw [hsame ts rfl] at hstuck
    obtain ⟨used, rfl, hbegins, hagain⟩ := hprompt.stuck _ _ _ hstuck
    refine ⟨used, rfl, hbegins, fun rest' hrest => ?_⟩
    rw [hsame _ (front_append used hrest), hagain rest' hrest]

theorem ite {reader reader' : Reader α} (terminal : Terminal) (h : Prompt rule reader)
    (h' : Prompt rule reader') :
    Prompt rule fun ts => if front ts = terminal then reader ts else reader' ts := by
  refine by_front fun next => ?_
  by_cases hnext : next = terminal
  · exact ⟨reader, h, fun ts hts => if_pos (hts.trans hnext)⟩
  · exact ⟨reader', h', fun ts hts => if_neg (hts ▸ hnext)⟩

/-- A reader that takes nothing. -/
theorem stop (h : Begins rule []) (expected : List Terminal) :
    Prompt rule fun ts => .error ⟨expected, ts⟩ where
  start := h
  ok ts a rest hok := by contradiction
  stuck ts e rest hstuck := by
    obtain ⟨rfl, rfl⟩ := Stuck.mk.inj (Except.error.inj hstuck)
    exact ⟨[], rfl, h, fun _ _ => rfl⟩

/-- A reader of one token of a class. -/
theorem token {P : Terminal → Prop} {reader : Reader Token} (expected : List Terminal)
    (hsome : ∃ terminal, P terminal) (hend : ¬ P .endOfInput)
    (hok : ∀ t rest, P t.terminal → reader (t :: rest) = .ok (t, rest))
    (hstuck : ∀ ts, ¬ P (front ts) → reader ts = .error ⟨expected, ts⟩) :
    Prompt (fun us t => us = [t] ∧ P t.terminal) reader where
  start := by
    obtain ⟨terminal, h⟩ := hsome
    exact ⟨[⟨terminal, "", .start⟩], _, rfl, h⟩
  ok ts t rest hread := by
    by_cases hfront : P (front ts)
    · cases ts with
      | nil => exact absurd hfront hend
      | cons first others =>
        rw [hok first others hfront] at hread
        obtain ⟨rfl, rfl⟩ := Prod.mk.inj (Except.ok.inj hread)
        exact ⟨[first], rfl, ⟨rfl, hfront⟩, fun rest' _ => hok first rest' hfront⟩
    · rw [hstuck ts hfront] at hread
      contradiction
  stuck ts e rest hread := by
    by_cases hfront : P (front ts)
    · cases ts with
      | nil => exact absurd hfront hend
      | cons first others =>
        rw [hok first others hfront] at hread
        contradiction
    · rw [hstuck ts hfront] at hread
      obtain ⟨rfl, rfl⟩ := Stuck.mk.inj (Except.error.inj hread)
      obtain ⟨terminal, h⟩ := hsome
      refine ⟨[], rfl, ⟨[⟨terminal, "", .start⟩], _, rfl, h⟩, fun rest' hrest => ?_⟩
      exact hstuck rest' (by rwa [hrest])

/-- A token of a terminal and what is read behind it. -/
theorem need {terminal : Terminal} {f : Token × List Token → Except Stuck (α × List Token)}
    (hend : terminal ≠ .endOfInput) (hrest : ∀ t, t.terminal = terminal →
      Prompt (fun vs a => rule (t :: vs) a) fun ts => f (t, ts)) :
    Prompt rule fun ts => Grammar.need terminal ts >>= f := by
  have htoken : Prompt (fun us t => us = [t] ∧ t.terminal = terminal) (Grammar.need terminal) := by
    refine token (P := (· = terminal)) [terminal] ⟨terminal, rfl⟩ (Ne.symm hend)
      (fun t rest ht => need_cons ht rest) fun ts hts => ?_
    cases ts with
    | nil => rfl
    | cons t rest => exact if_neg hts
  refine htoken.bind fun us t ht => ?_
  obtain ⟨rfl, ht⟩ := ht
  exact hrest t ht

/-- Fuel that is enough for any tokens does not matter. -/
theorem of_fuel {more : Nat → Reader α} (h : ∀ fuel, Prompt rule (more fuel))
    (hfuel : ∀ {fuel fuel' : Nat} {ts : List Token}, ts.length < fuel → ts.length < fuel' →
      more fuel ts = more fuel' ts) : Prompt rule fun ts => more (ts.length + 1) ts := by
  have hcommon : ∀ ts ts' : List Token, ∃ fuel, more (ts.length + 1) ts = more fuel ts ∧
      more (ts'.length + 1) ts' = more fuel ts' := fun ts ts' =>
    ⟨ts.length + ts'.length + 1, hfuel (Nat.lt_succ_self _) (by omega),
      hfuel (Nat.lt_succ_self _) (by omega)⟩
  refine ⟨(h 0).start, fun ts a rest hok => ?_, fun ts e rest hstuck => ?_⟩
  · obtain ⟨used, rfl, ha, _⟩ := (h _).ok _ _ _ hok
    refine ⟨used, rfl, ha, fun rest' hrest => ?_⟩
    obtain ⟨fuel, hsame, hsame'⟩ := hcommon (used ++ rest) (used ++ rest')
    rw [hsame] at hok
    obtain ⟨used', heq, _, hagain⟩ := (h fuel).ok _ _ _ hok
    obtain rfl := List.append_cancel_right heq
    rw [hsame', hagain rest' hrest]
  · obtain ⟨used, rfl, hbegins, _⟩ := (h _).stuck _ _ _ hstuck
    refine ⟨used, rfl, hbegins, fun rest' hrest => ?_⟩
    obtain ⟨fuel, hsame, hsame'⟩ := hcommon (used ++ rest) (used ++ rest')
    rw [hsame] at hstuck
    obtain ⟨used', heq, _, hagain⟩ := (h fuel).stuck _ _ _ hstuck
    obtain rfl := List.append_cancel_right heq
    rw [hsame', hagain rest' hrest]

end Prompt

/-! ## Types and properties -/

theorem elementPart_prompt : Prompt DerivesElement elementPart := by
  refine .ite _ (.need (by decide) fun _ hcolon => ?_) (.done .absent)
  exact .need (by decide) fun _ helement => .ask _ (.done (.present hcolon helement))

theorem sizePart_prompt : Prompt DerivesSize sizePart := by
  refine .ite _ (.need (by decide) fun _ hleft => ?_) (.done .absent)
  refine .need (by decide) fun _ hsize => .need (by decide) fun _ hright => ?_
  exact .done (.present hleft hsize hright)

theorem typeTree_prompt : Prompt DerivesType typeTree := by
  refine .need (by decide) fun _ hname => .ask _ (elementPart_prompt.bind fun es _ helement => ?_)
  refine sizePart_prompt.bind fun ss _ hsize => .done ?_
  rw [List.append_nil]
  exact .type hname helement hsize

theorem attributePart_prompt : Prompt DerivesAttribute attributePart := by
  refine .ite _ (.need (by decide) fun _ hcolon => ?_) (.done .absent)
  refine .need (by decide) fun _ hname => .ask _ (.ite _ ?_ (.done (.bare hcolon hname)))
  refine .need (by decide) fun _ hleft => .need (by decide) fun _ hargument => ?_
  refine .need (by decide) fun _ hright => .ask _ (.done ?_)
  exact .call hcolon hname hleft hargument hright

theorem property_prompt : Prompt DerivesProperty property := by
  refine typeTree_prompt.bind fun ts _ htype => .need (by decide) fun _ hname => .ask _ ?_
  refine attributePart_prompt.bind fun as _ hattr => .need (by decide) fun _ hsemicolon => ?_
  exact .ask _ (.done (.property htype hname hattr hsemicolon))

/-! ## State entries -/

theorem subkeyPart_prompt : Prompt DerivesSubkey subkeyPart := by
  refine .ite _ (.need (by decide) fun _ hcolons => ?_) (.done .absent)
  exact .need (by decide) fun _ hsubkey => .done (.present hcolons hsubkey)

theorem value_prompt : Prompt (fun us t => us = [t] ∧ t.terminal ∈ valueTerminals) value := by
  refine .token (P := (· ∈ valueTerminals)) valueTerminals ⟨.integer, by decide⟩ (by decide)
    (fun t rest ht => value_eq_ok_iff.mpr ⟨rfl, ht⟩) fun ts hts => ?_
  cases ts with
  | nil => rfl
  | cons t rest => exact if_neg hts

theorem entry_prompt : Prompt DerivesEntry entry := by
  refine .need (by decide) fun _ hkey => .ask _ (subkeyPart_prompt.bind fun ks _ hsubkey => ?_)
  refine .need (by decide) fun _ hequals => value_prompt.bind fun us v hv => ?_
  obtain ⟨rfl, hvalue⟩ := hv
  refine .need (by decide) fun _ hsemicolon => .done ?_
  exact .entry hkey hsubkey hequals hvalue hsemicolon

/-! ## Repetition

The fuel of a repetition is the number of tokens in front of it, which the reader does not otherwise
depend on.
-/

section Repetition

variable {rule : List Token → α → Prop} {reader : Reader α} {more : Nat → Reader (List α)}
  (hrepeats : Repeats reader more) (hreader : Prompt rule reader)

include hrepeats hreader

theorem Repeats.prompt (fuel : Nat) : Prompt (Sequence rule) (more fuel) := by
  induction fuel with
  | zero =>
    rw [funext hrepeats.zero]
    exact .done .nil
  | succ fuel ih =>
    rw [funext (hrepeats.succ fuel)]
    refine .ask _ (.ite _ (hreader.bind fun us a hfirst => ?_) (.done .nil))
    refine ih.bind fun vs as hothers => .done ?_
    rw [List.append_nil]
    exact .cons hfirst hothers

variable (hsome : ∀ us a, rule us a → us ≠ [])

include hsome

/-- Fuel that exceeds the number of tokens is enough. -/
theorem Repeats.fuel {fuel fuel' : Nat} {ts : List Token} (h : ts.length < fuel)
    (h' : ts.length < fuel') : more fuel ts = more fuel' ts := by
  induction fuel generalizing fuel' ts with
  | zero => exact absurd h (Nat.not_lt_zero _)
  | succ fuel ih =>
    obtain ⟨fuel', rfl⟩ := Nat.exists_eq_add_one_of_ne_zero (Nat.ne_zero_of_lt h')
    rw [hrepeats.succ, hrepeats.succ]
    cases hread : reader ts with
    | error s => rfl
    | ok read =>
      obtain ⟨a, rest⟩ := read
      obtain ⟨used, rfl, ha, _⟩ := hreader.ok _ _ _ hread
      have hpos := List.length_pos_iff.mpr (hsome used a ha)
      rw [List.length_append] at h h'
      simp only [ok_bind, ih (by omega : rest.length < fuel) (by omega : rest.length < fuel')]

/-- Trees up to a closing brace, with fuel for all tokens. -/
theorem Repeats.prompt_any : Prompt (Sequence rule) fun ts => more (ts.length + 1) ts :=
  .of_fuel (hrepeats.prompt hreader) fun h h' => hrepeats.fuel hreader hsome h h'

/-- One tree at least, and what is read behind the trees.  The question in front makes sure that
there is a first tree. -/
theorem Repeats.prompt_some {rule' : List Token → β → Prop}
    {f : List α × List Token → Except Stuck (β × List Token)}
    (hlong : ∀ us a, rule us a → 2 ≤ us.length)
    (hrest : ∀ us as, Sequence rule us as → as ≠ [] →
      Prompt (fun vs b => rule' (us ++ vs) b) fun ts => f (as, ts)) :
    Prompt rule' fun ts => ask [.identifier] ts >>= fun _ => more ts.length ts >>= f := by
  have hfirst : ∀ ts, (ask [.identifier] ts >>= fun _ => more ts.length ts >>= f) =
      ask [.identifier] ts >>= fun _ => reader ts >>= fun read =>
        more (read.2.length + 1) read.2 >>= fun others => f (read.1 :: others.1, others.2) := by
    intro ts
    cases hask : ask [.identifier] ts with
    | error s => rfl
    | ok u =>
      have hfront := List.mem_singleton.mp (ask_eq_ok_iff.mp hask)
      obtain ⟨t, rest, rfl⟩ := exists_cons_of_front hfront (by decide)
      have hagain : ask [.identifier, .mark .rightBrace] (t :: rest) = .ok () :=
        ask_of_mem (by simp [hfront])
      rw [ok_bind, ok_bind, List.length_cons, hrepeats.succ, hagain, ok_bind, if_pos hfront]
      cases hread : reader (t :: rest) with
      | error s => rfl
      | ok read =>
        obtain ⟨a, behind⟩ := read
        obtain ⟨used, heq, ha, _⟩ := hreader.ok _ _ _ hread
        have hlength := congrArg List.length heq
        rw [List.length_append, List.length_cons] at hlength
        have hused := hlong used a ha
        simp only [ok_bind, bind_assoc, hrepeats.fuel hreader hsome
          (by omega : behind.length < rest.length) (Nat.lt_succ_self _)]
  rw [funext hfirst]
  refine .ask _ (hreader.bind fun us a ha => ?_)
  change Prompt _ fun ts => more (ts.length + 1) ts >>= fun others => f (a :: others.1, others.2)
  refine (hrepeats.prompt_any hreader hsome).bind fun vs as has => ?_
  simp only [← List.append_assoc]
  exact hrest (us ++ vs) (a :: as) (.cons ha has) (List.cons_ne_nil a as)

end Repetition

/-! ## Blocks -/

/-- The semicolon behind a block, if there is one, and what is read behind it. -/
theorem Prompt.optionalSemicolon {rule : List Token → α → Prop} {reader : Reader α}
    (h : ∀ us, DerivesSemicolon us → Prompt (fun vs a => rule (us ++ vs) a) reader) :
    Prompt rule fun ts => optionalSemicolon ts >>= reader := by
  simp only [Grammar.optionalSemicolon, bind_assoc]
  refine .ask _ (.by_front fun next => ?_)
  by_cases hnext : next = .mark .semicolon
  · refine ⟨fun ts => needMark .semicolon ts >>= fun read => reader read.2,
      .need (by decide) fun _ hsemicolon => h _ (.present hsemicolon), fun ts hts => ?_⟩
    rw [if_pos (hts.trans hnext), bind_assoc]
    rfl
  · exact ⟨reader, h [] .absent, fun ts hts => by rw [if_neg (hts ▸ hnext)]; rfl⟩

theorem DerivesProperty.two_le_length {used : List Token} {p : PropertyTree}
    (h : DerivesProperty used p) : 2 ≤ used.length := by
  cases h with
  | property => simp only [List.length_append, List.length_cons, List.length_nil]; omega

theorem DerivesEntry.ne_nil {used : List Token} {e : EntryTree} (h : DerivesEntry used e) :
    used ≠ [] := by
  cases h with
  | entry => exact List.cons_ne_nil _ _

theorem structPart_prompt : Prompt DerivesStruct structPart := by
  have hsome : ∀ us p, DerivesProperty us p → us ≠ [] := fun us p hp =>
    List.ne_nil_of_length_pos (by have := hp.two_le_length; omega)
  refine .need (by decide) fun _ hword => .need (by decide) fun _ hname => .ask _ ?_
  refine attributePart_prompt.bind fun as _ hattr => .need (by decide) fun _ hleft => ?_
  refine moreProperties_repeats.prompt_some property_prompt hsome
    (fun _ _ hp => hp.two_le_length) fun ps fields hps hne => .need (by decide) fun _ hright => ?_
  refine .optionalSemicolon fun ss hss => .done ?_
  simpa using .struct hword hname hattr hleft hps hne hright hss

theorem stateBlock_prompt : Prompt DerivesStateBlock stateBlock := by
  refine .need (by decide) fun _ hleft => ?_
  have hentries := moreEntries_repeats.prompt_any entry_prompt fun _ _ he => he.ne_nil
  refine hentries.bind fun es entries hes => .need (by decide) fun _ hright => ?_
  refine .optionalSemicolon fun ss hss => .done ?_
  simpa using .block hleft hes hright hss

/-! ## Statements -/

theorem renamePart_prompt : Prompt DerivesRename renamePart := by
  refine .ite _ (.need (by decide) fun _ hword => ?_) (.done .absent)
  exact .need (by decide) fun _ hname => .done (.present hword hname)

theorem useStatement_prompt : Prompt (DerivesBehind .use_) useStatement := by
  refine .need (by decide) fun _ hfile => .need (by decide) fun _ hcolons => ?_
  refine .need (by decide) fun _ hmember => .ask _ (renamePart_prompt.bind fun rs _ hrename => ?_)
  exact .need (by decide) fun _ hsemicolon => .done (.use hfile hcolons hmember hrename hsemicolon)

theorem constStatement_prompt : Prompt (DerivesBehind .const_) constStatement := by
  refine .ask _ (.ite _ (structPart_prompt.bind fun us s hstruct => .done ?_)
    (property_prompt.bind fun us p hproperty => .done ?_))
  · simpa using .buffer hstruct
  · simpa using .constant hproperty

theorem outputStatement_prompt : Prompt (DerivesBehind .output_) outputStatement := by
  refine property_prompt.bind fun us p hproperty => .done ?_
  simpa using .output hproperty

theorem vertexFormatStatement_prompt :
    Prompt (DerivesBehind .vformat_) vertexFormatStatement := by
  refine structPart_prompt.bind fun us s hstruct => .done ?_
  simpa using .vertexFormat hstruct

theorem pipelineStatement_prompt : Prompt (DerivesBehind .pipeline_) pipelineStatement := by
  refine .need (by decide) fun _ hname => stateBlock_prompt.bind fun es _ hblock => .done ?_
  simpa using .pipeline hname hblock

theorem blendFuncStatement_prompt : Prompt (DerivesBehind .blendfunc_) blendFuncStatement := by
  refine .need (by decide) fun _ hname => .ask _ (.ite _ ?_ ?_)
  · exact .need (by decide) fun _ hsemicolon => .done (.blendFuncAlone hname hsemicolon)
  · refine stateBlock_prompt.bind fun es _ hblock => .done ?_
    simpa using .blendFunc hname hblock

/-- A statement goes on as its first reserved word says. -/
theorem statement_word {w : Reserved} {reader : Reader StatementTree}
    (h : Prompt (DerivesBehind w) reader)
    (hread : ∀ t ts, t.terminal = .word w → statement (t :: ts) = reader ts) :
    ∃ reader' : Reader StatementTree, Prompt DerivesStatement reader' ∧
      ∀ ts, front ts = .word w → statement ts = reader' ts := by
  refine ⟨fun ts => need (.word w) ts >>= fun read => reader read.2,
    .need (by simp) fun t ht => h.imp fun us a ha => .statement ht ha, fun ts hts => ?_⟩
  obtain ⟨t, rest, rfl⟩ := exists_cons_of_front hts (by simp)
  simp only [need_cons hts, hread t rest hts, ok_bind]

theorem statement_of_not_mem {t : Token} (h : t.terminal ∉ statementStarts) (rest : List Token) :
    statement (t :: rest) = .error ⟨boundary, t :: rest⟩ := by
  rw [statement]
  split
  case h_7 => rfl
  all_goals exact absurd (by simp [*, statementStarts]) h

theorem statement_prompt : Prompt DerivesStatement statement := by
  have hstart : Begins DerivesStatement [] := by
    obtain ⟨more, a, h⟩ := useStatement_prompt.start
    exact ⟨⟨.word .use_, "", .start⟩ :: more, a, .statement rfl h⟩
  refine .by_front fun next => ?_
  by_cases hnext : next ∈ statementStarts
  · simp only [statementStarts, List.mem_cons, List.not_mem_nil, or_false] at hnext
    rcases hnext with rfl | rfl | rfl | rfl | rfl | rfl
    · exact statement_word useStatement_prompt fun t ts ht => by rw [statement, ht]
    · exact statement_word constStatement_prompt fun t ts ht => by rw [statement, ht]
    · exact statement_word outputStatement_prompt fun t ts ht => by rw [statement, ht]
    · exact statement_word vertexFormatStatement_prompt fun t ts ht => by rw [statement, ht]
    · exact statement_word pipelineStatement_prompt fun t ts ht => by rw [statement, ht]
    · exact statement_word blendFuncStatement_prompt fun t ts ht => by rw [statement, ht]
  · refine ⟨_, .stop hstart boundary, fun ts hts => ?_⟩
    cases ts with
    | nil => rfl
    | cons t rest =>
      rw [← hts] at hnext
      exact statement_of_not_mem hnext rest

/-! ## Texts -/

/-- Tokens with which a text can start. -/
def Viable (ts : List Token) : Prop := Begins DerivesText ts

theorem viable_nil : Viable [] := ⟨[], [], .nil⟩

theorem Viable.of_append {us vs : List Token} (h : Viable (us ++ vs)) : Viable us := by
  obtain ⟨more, ps, hps⟩ := h
  exact ⟨vs ++ more, ps, by rwa [← List.append_assoc]⟩

/-- Behind a phrase a text goes on as any text does. -/
theorem Viable.append {us vs : List Token} {p : Phrase} (hp : DerivesPhrase us p)
    (h : Viable vs) : Viable (us ++ vs) := by
  obtain ⟨more, ps, hps⟩ := h
  exact ⟨more, p :: ps, by rw [List.append_assoc]; exact .cons hp hps⟩

theorem phrasesFrom_succ (fuel : Nat) {ts : List Token} (h : ts ≠ []) :
    phrasesFrom (fuel + 1) ts = statement ts >>= fun read =>
      phrasesFrom fuel read.2 >>= fun others =>
        .ok (⟨read.1, consumed ts read.2⟩ :: others) := by
  cases ts with
  | nil => exact absurd rfl h
  | cons => rfl

/-- The reader of a text is stuck behind viable tokens, and so it is whatever follows the next
token. -/
theorem phrasesFrom_stuck_viable {fuel : Nat} {ts rest : List Token} {e : List Terminal}
    (h : phrasesFrom fuel ts = .error ⟨e, rest⟩) : ∃ used, ts = used ++ rest ∧ Viable used ∧
      ∀ t behind more fuel', rest = t :: behind → (used ++ t :: more).length ≤ fuel' →
        phrasesFrom fuel' (used ++ t :: more) = .error ⟨e, t :: more⟩ := by
  induction fuel generalizing ts with
  | zero => contradiction
  | succ fuel ih =>
    have hne : ts ≠ [] := by
      rintro rfl
      contradiction
    rw [phrasesFrom_succ fuel hne] at h
    rcases bind_eq_error_iff.mp h with hread | ⟨⟨tree, mid⟩, hread, hmore⟩
    · obtain ⟨used, rfl, ⟨more, tree, htree⟩, hsame⟩ := statement_prompt.stuck _ _ _ hread
      have hphrase : DerivesPhrase (used ++ more) ⟨tree, used ++ more⟩ := ⟨rfl, htree⟩
      have hviable : Viable used := (viable_nil.append hphrase).of_append.of_append
      refine ⟨used, rfl, hviable, fun t behind others fuel' hrest hfuel => ?_⟩
      obtain ⟨fuel', rfl⟩ := Nat.exists_eq_add_one_of_ne_zero (n := fuel') (by
        rintro rfl
        simp at hfuel)
      rw [phrasesFrom_succ fuel' (by simp), hsame (t :: others) (by rw [hrest]; rfl)]
      rfl
    · obtain ⟨us, rfl, htree, hsame⟩ := statement_prompt.ok _ _ _ hread
      obtain ⟨used, rfl, hviable, hstuck⟩ : ∃ used, mid = used ++ rest ∧ Viable used ∧ _ := by
        rcases bind_eq_error_iff.mp hmore with hmore | ⟨others, _, hdone⟩
        · exact ih hmore
        · contradiction
      have hphrase : DerivesPhrase us ⟨tree, us⟩ := ⟨rfl, htree⟩
      refine ⟨us ++ used, (List.append_assoc _ _ _).symm, hviable.append hphrase,
        fun t behind others fuel' hrest hfuel => ?_⟩
      have hpos := List.length_pos_iff.mpr hphrase.ne_nil
      rw [List.append_assoc, List.length_append] at hfuel
      obtain ⟨fuel', rfl⟩ := Nat.exists_eq_add_one_of_ne_zero (by omega : fuel' ≠ 0)
      have hfront : front (used ++ t :: others) = front (used ++ rest) :=
        front_append used (by rw [hrest]; rfl)
      rw [List.append_assoc, phrasesFrom_succ fuel' (by simp), hsame _ hfront, ok_bind,
        hstuck t behind others fuel' hrest (by omega)]
      rfl

/-- A text is stuck behind viable tokens, at the end of them all or in front of a token with which
they are not viable any more. -/
theorem phrases_stuck_viable {ts rest : List Token} {e : List Terminal}
    (h : phrases ts = .error ⟨e, rest⟩) : ∃ used, ts = used ++ rest ∧ Viable used ∧
      ∀ t behind, rest = t :: behind → ¬ Viable (used ++ [t]) := by
  obtain ⟨used, hsplit, hviable, hstuck⟩ := phrasesFrom_stuck_viable h
  refine ⟨used, hsplit, hviable, fun t behind hrest hnext => ?_⟩
  obtain ⟨more, ps, hps⟩ := hnext
  rw [List.append_assoc, List.singleton_append, ← phrases_eq_ok_iff, phrases,
    hstuck t behind more _ hrest (Nat.le_refl _)] at hps
  contradiction

end AnnotatedShader.Grammar
