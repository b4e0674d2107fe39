import AnnotatedShader.Proofs.Except
import AnnotatedShader.Proofs.Grammar.Derivation

set_option autoImplicit false

/-!
# Readers and the grammar

A reader is sound when the tokens that it takes derive the tree that it returns (`Sound`).  It is
complete when it reads whatever tree is derived by the tokens in front of a rest, as long as the
rest starts with something that can follow (`Complete`); that is what its questions ask for.

There are two lemmas for each reader up to the blocks of statements, in the order of the grammar.
Types, attributes and properties come first, then repetitions, which are proved once for what is
repeated (`Repeats`), then state entries and blocks.  A part that may be missing is complete because
what can follow it cannot start it.  Statements and whole texts are put together from these in a
file of their own.
-/

namespace AnnotatedShader.Grammar

variable {α : Type}

/-- The tokens that a reader takes derive its tree. -/
def Sound (rule : List Token → α → Prop) (reader : Reader α) : Prop :=
  ∀ ts a rest, reader ts = .ok (a, rest) → ∃ used, ts = used ++ rest ∧ rule used a

/-- A reader takes the tokens of a tree, whatever follows them of what can follow. -/
def Complete (rule : List Token → α → Prop) (follow : List Terminal) (reader : Reader α) : Prop :=
  ∀ used a rest, rule used a → front rest ∈ follow → reader (used ++ rest) = .ok (a, rest)

/-! ## Tokens and questions -/

theorem ok_bind {ε β : Type} (a : α) (f : α → Except ε β) : (Except.ok a >>= f) = f a := rfl

theorem need_eq_ok_iff {terminal : Terminal} {ts rest : List Token} {t : Token} :
    need terminal ts = .ok (t, rest) ↔ ts = t :: rest ∧ t.terminal = terminal := by
  cases ts with
  | nil => simp [need]
  | cons first others =>
    by_cases hfirst : first.terminal = terminal
    · simp only [need, hfirst, if_true, Except.ok.injEq, Prod.mk.injEq, List.cons.injEq]
      constructor
      · rintro ⟨rfl, rfl⟩
        exact ⟨⟨rfl, rfl⟩, hfirst⟩
      · exact fun h => h.1
    · simp only [need, hfirst, if_false, reduceCtorEq, false_iff, List.cons.injEq]
      rintro ⟨⟨rfl, _⟩, h⟩
      exact hfirst h

theorem need_cons {terminal : Terminal} {t : Token} (h : t.terminal = terminal)
    (rest : List Token) :
    need terminal (t :: rest) = .ok (t, rest) := need_eq_ok_iff.mpr ⟨rfl, h⟩

theorem ask_eq_ok_iff {expected : List Terminal} {ts : List Token} {u : Unit} :
    ask expected ts = .ok u ↔ front ts ∈ expected := by
  unfold ask
  split <;> simp_all

theorem ask_of_mem {expected : List Terminal} {ts : List Token} (h : front ts ∈ expected) :
    ask expected ts = .ok () := ask_eq_ok_iff.mpr h

/-! ## Types -/

theorem elementPart_sound : Sound DerivesElement elementPart := by
  intro ts element rest h
  unfold elementPart at h
  split at h
  · simp only [bind_eq_ok_iff, Prod.exists, needMark, need_eq_ok_iff] at h
    obtain ⟨colon, _, ⟨rfl, hcolon⟩, name, rest', ⟨rfl, hname⟩, _, _, h⟩ := h
    obtain ⟨rfl, rfl⟩ := Prod.mk.inj (Except.ok.inj h)
    exact ⟨[colon, name], rfl, .present hcolon hname⟩
  · obtain ⟨rfl, rfl⟩ := Prod.mk.inj (Except.ok.inj h)
    exact ⟨[], rfl, .absent⟩

theorem elementPart_complete :
    Complete DerivesElement [.identifier, .mark .leftBracket] elementPart := by
  intro used element rest h hrest
  unfold elementPart
  cases h with
  | absent =>
    have hnone : front rest ≠ .mark .colon := by
      intro heq
      simp [heq] at hrest
    simp only [List.nil_append, hnone, if_false]
  | present hcolon helement =>
    simp only [List.cons_append, List.nil_append, front_cons, hcolon, if_true, needMark,
      need_cons hcolon, need_cons helement, ask_of_mem hrest, ok_bind]

theorem sizePart_sound : Sound DerivesSize sizePart := by
  intro ts size rest h
  unfold sizePart at h
  split at h
  · simp only [bind_eq_ok_iff, Prod.exists, needMark, need_eq_ok_iff] at h
    obtain ⟨left, _, ⟨rfl, hleft⟩, n, _, ⟨rfl, hn⟩, right, rest', ⟨rfl, hright⟩, h⟩ := h
    obtain ⟨rfl, rfl⟩ := Prod.mk.inj (Except.ok.inj h)
    exact ⟨[left, n, right], rfl, .present hleft hn hright⟩
  · obtain ⟨rfl, rfl⟩ := Prod.mk.inj (Except.ok.inj h)
    exact ⟨[], rfl, .absent⟩

theorem sizePart_complete : Complete DerivesSize [.identifier] sizePart := by
  intro used size rest h hrest
  unfold sizePart
  cases h with
  | absent =>
    have hnone : front rest ≠ .mark .leftBracket := by
      intro heq
      simp [heq] at hrest
    simp only [List.nil_append, hnone, if_false]
  | present hleft hsize hright =>
    simp only [List.cons_append, List.nil_append, front_cons, hleft, if_true, needMark,
      need_cons hleft, need_cons hsize, need_cons hright, ok_bind]

theorem typeTree_sound : Sound DerivesType typeTree := by
  intro ts t rest h
  simp only [typeTree, bind_eq_ok_iff, Prod.exists, need_eq_ok_iff] at h
  obtain ⟨name, ts, ⟨rfl, hname⟩, _, _, element, ts', hread, size, rest', hread', h⟩ := h
  obtain ⟨rfl, rfl⟩ := Prod.mk.inj (Except.ok.inj h)
  obtain ⟨es, rfl, helement⟩ := elementPart_sound _ _ _ hread
  obtain ⟨ss, rfl, hsize⟩ := sizePart_sound _ _ _ hread'
  exact ⟨name :: (es ++ ss), by simp, .type hname helement hsize⟩

theorem typeTree_complete : Complete DerivesType [.identifier] typeTree := by
  intro used t rest h hrest
  cases h with
  | @type name es ss element size hname helement hsize =>
    have hss : front (ss ++ rest) ∈ [.identifier, .mark .leftBracket] :=
      hsize.front_mem ((by decide : [Terminal.identifier] ⊆ _) hrest) (by decide)
    have hes : front (es ++ (ss ++ rest)) ∈ [.mark .colon, .identifier, .mark .leftBracket] :=
      helement.front_mem ((by decide : [.identifier, .mark .leftBracket] ⊆ _) hss) (by decide)
    simp only [typeTree, List.cons_append, List.append_assoc, need_cons hname, ok_bind,
      ask_of_mem hes, elementPart_complete _ _ _ helement hss, sizePart_complete _ _ _ hsize hrest]

/-! ## Properties -/

theorem attributePart_sound : Sound DerivesAttribute attributePart := by
  intro ts attr rest h
  unfold attributePart at h
  split at h
  · simp only [bind_eq_ok_iff, Prod.exists, needMark, need_eq_ok_iff] at h
    obtain ⟨colon, _, ⟨rfl, hcolon⟩, name, ts', ⟨rfl, hname⟩, _, _, h⟩ := h
    split at h
    · simp only [bind_eq_ok_iff, Prod.exists, need_eq_ok_iff] at h
      obtain ⟨left, _, ⟨rfl, hleft⟩, argument, _, ⟨rfl, hargument⟩, right, rest', ⟨rfl, hright⟩,
        _, _, h⟩ := h
      obtain ⟨rfl, rfl⟩ := Prod.mk.inj (Except.ok.inj h)
      exact ⟨[colon, name, left, argument, right], rfl, .call hcolon hname hleft hargument hright⟩
    · obtain ⟨rfl, rfl⟩ := Prod.mk.inj (Except.ok.inj h)
      exact ⟨[colon, name], rfl, .bare hcolon hname⟩
  · obtain ⟨rfl, rfl⟩ := Prod.mk.inj (Except.ok.inj h)
    exact ⟨[], rfl, .absent⟩

theorem attributePart_complete :
    Complete DerivesAttribute [.mark .semicolon, .mark .leftBrace] attributePart := by
  intro used attr rest h hrest
  have hafter : front rest ∈ [.mark .leftParen, .mark .semicolon, .mark .leftBrace] :=
    List.mem_cons_of_mem _ hrest
  have hnone : ∀ m, m ∉ [Terminal.mark .semicolon, .mark .leftBrace] → front rest ≠ m := by
    rintro m hm rfl
    exact hm hrest
  unfold attributePart
  cases h with
  | absent => simp only [List.nil_append, hnone (.mark .colon) (by decide), if_false]
  | bare hcolon hname =>
    simp only [List.cons_append, List.nil_append, front_cons, hcolon, if_true, needMark,
      need_cons hcolon, need_cons hname, ask_of_mem hafter, ok_bind,
      hnone (.mark .leftParen) (by decide), if_false]
  | @call colon name left argument right hcolon hname hleft hargument hright =>
    have hparen : front (left :: argument :: right :: rest) ∈
        [.mark .leftParen, .mark .semicolon, .mark .leftBrace] := by simp [hleft]
    simp only [List.cons_append, List.nil_append, front_cons, hcolon, hleft, if_true, needMark,
      need_cons hcolon, need_cons hname, need_cons hleft, need_cons hargument, need_cons hright,
      ask_of_mem hparen, ask_of_mem hrest, ok_bind]

theorem property_sound : Sound DerivesProperty property := by
  intro ts p rest h
  simp only [property, bind_eq_ok_iff, Prod.exists, needMark, need_eq_ok_iff] at h
  obtain ⟨type, _, hread, name, ts', ⟨rfl, hname⟩, _, _, attr, _, hread', semicolon, rest',
    ⟨rfl, hsemicolon⟩, _, _, h⟩ := h
  obtain ⟨rfl, rfl⟩ := Prod.mk.inj (Except.ok.inj h)
  obtain ⟨us, rfl, htype⟩ := typeTree_sound _ _ _ hread
  obtain ⟨as, rfl, hattr⟩ := attributePart_sound _ _ _ hread'
  exact ⟨us ++ name :: (as ++ [semicolon]), by simp, .property htype hname hattr hsemicolon⟩

theorem property_complete : Complete DerivesProperty afterProperty property := by
  intro used p rest h hrest
  cases h with
  | @property us as type name semicolon attr htype hname hattr hsemicolon =>
    have has : front (as ++ semicolon :: rest) ∈ [.mark .colon, .mark .semicolon] :=
      hattr.front_mem (by simp [hsemicolon]) (by decide)
    have htype := typeTree_complete us type (name :: (as ++ semicolon :: rest)) htype
      (by simp [hname])
    have hattr := attributePart_complete as attr (semicolon :: rest) hattr (by simp [hsemicolon])
    simp only [property, List.cons_append, List.nil_append, List.append_assoc, htype,
      need_cons hname, ask_of_mem has, hattr, needMark, need_cons hsemicolon, ask_of_mem hrest,
      ok_bind]

/-! ## Repetition -/

/-- A reader that repeats another one up to a closing brace. -/
structure Repeats (reader : Reader α) (more : Nat → Reader (List α)) : Prop where
  zero : ∀ ts, more 0 ts = .ok ([], ts)
  succ : ∀ fuel ts, more (fuel + 1) ts = (do
    ask [.identifier, .mark .rightBrace] ts
    if front ts = .identifier then do
      let (a, ts) ← reader ts
      let (as, ts) ← more fuel ts
      .ok (a :: as, ts)
    else .ok ([], ts))

theorem moreProperties_repeats : Repeats property moreProperties := ⟨fun _ => rfl, fun _ _ => rfl⟩

theorem moreEntries_repeats : Repeats entry moreEntries := ⟨fun _ => rfl, fun _ _ => rfl⟩

section Repetition

variable {rule : List Token → α → Prop} {reader : Reader α} {more : Nat → Reader (List α)}
  (hrepeats : Repeats reader more)

include hrepeats

theorem Repeats.sound (hsound : Sound rule reader) (fuel : Nat) :
    Sound (Sequence rule) (more fuel) := by
  induction fuel with
  | zero =>
    intro ts as rest h
    rw [hrepeats.zero] at h
    obtain ⟨rfl, rfl⟩ := Prod.mk.inj (Except.ok.inj h)
    exact ⟨[], rfl, .nil⟩
  | succ fuel ih =>
    intro ts as rest h
    simp only [hrepeats.succ, bind_eq_ok_iff] at h
    obtain ⟨_, _, h⟩ := h
    split at h
    · simp only [bind_eq_ok_iff, Prod.exists] at h
      obtain ⟨a, ts', hread, others, rest', hmore, h⟩ := h
      obtain ⟨rfl, rfl⟩ := Prod.mk.inj (Except.ok.inj h)
      obtain ⟨us, rfl, hfirst⟩ := hsound _ _ _ hread
      obtain ⟨vs, rfl, hothers⟩ := ih _ _ _ hmore
      exact ⟨us ++ vs, by simp, .cons hfirst hothers⟩
    · obtain ⟨rfl, rfl⟩ := Prod.mk.inj (Except.ok.inj h)
      exact ⟨[], rfl, .nil⟩

/-- As many trees are read as there is fuel for. -/
theorem Repeats.complete {follow : List Terminal} (hcomplete : Complete rule follow reader)
    (hfollow : [.identifier, .mark .rightBrace] ⊆ follow)
    (hrule : ∀ us vs a, rule us a → front (us ++ vs) = .identifier) {fuel : Nat}
    {used rest : List Token} {as : List α} (h : Sequence rule used as) (hfuel : as.length ≤ fuel)
    (hrest : front rest = .mark .rightBrace) : more fuel (used ++ rest) = .ok (as, rest) := by
  induction h generalizing fuel with
  | nil =>
    cases fuel with
    | zero => exact hrepeats.zero _
    | succ fuel =>
      have hask : front rest ∈ [.identifier, .mark .rightBrace] := by simp [hrest]
      simp only [List.nil_append, hrepeats.succ, ask_of_mem hask, ok_bind, hrest, reduceCtorEq,
        if_false]
  | @cons us vs a as hfirst hothers ih =>
    cases fuel with
    | zero => simp at hfuel
    | succ fuel =>
      have hnext : front (vs ++ rest) ∈ [.identifier, .mark .rightBrace] :=
        hothers.front_mem [.identifier] [.mark .rightBrace]
          (fun _ _ _ hr => by simp [hrule _ _ _ hr]) (by simp [hrest])
      have hstart := hrule us (vs ++ rest) a hfirst
      have hask : front (us ++ (vs ++ rest)) ∈ [.identifier, .mark .rightBrace] := by simp [hstart]
      have hread := hcomplete us a (vs ++ rest) hfirst (hfollow hnext)
      have hmore := ih (by simpa using hfuel)
      simp only [List.append_assoc, hrepeats.succ, ask_of_mem hask, ok_bind, hstart, if_true, hread,
        hmore]

end Repetition

/-! ## State entries -/

theorem subkeyPart_sound : Sound DerivesSubkey subkeyPart := by
  intro ts subkey rest h
  unfold subkeyPart at h
  split at h
  · simp only [bind_eq_ok_iff, Prod.exists, needMark, need_eq_ok_iff] at h
    obtain ⟨colons, _, ⟨rfl, hcolons⟩, name, rest', ⟨rfl, hname⟩, h⟩ := h
    obtain ⟨rfl, rfl⟩ := Prod.mk.inj (Except.ok.inj h)
    exact ⟨[colons, name], rfl, .present hcolons hname⟩
  · obtain ⟨rfl, rfl⟩ := Prod.mk.inj (Except.ok.inj h)
    exact ⟨[], rfl, .absent⟩

theorem subkeyPart_complete : Complete DerivesSubkey [.mark .equals] subkeyPart := by
  intro used subkey rest h hrest
  unfold subkeyPart
  cases h with
  | absent =>
    have hnone : front rest ≠ .mark .doubleColon := by
      intro heq
      simp [heq] at hrest
    simp only [List.nil_append, hnone, if_false]
  | present hcolons hsubkey =>
    simp only [List.cons_append, List.nil_append, front_cons, hcolons, if_true, needMark,
      need_cons hcolons, need_cons hsubkey, ok_bind]

theorem value_eq_ok_iff {ts rest : List Token} {t : Token} :
    value ts = .ok (t, rest) ↔ ts = t :: rest ∧ t.terminal ∈ valueTerminals := by
  cases ts with
  | nil => simp [value]
  | cons first others =>
    by_cases hfirst : first.terminal ∈ valueTerminals
    · simp only [value, hfirst, if_true, Except.ok.injEq, Prod.mk.injEq, List.cons.injEq]
      constructor
      · rintro ⟨rfl, rfl⟩
        exact ⟨⟨rfl, rfl⟩, hfirst⟩
      · exact fun h => h.1
    · simp only [value, hfirst, if_false, reduceCtorEq, false_iff, List.cons.injEq]
      rintro ⟨⟨rfl, _⟩, h⟩
      exact hfirst h

theorem entry_sound : Sound DerivesEntry entry := by
  intro ts e rest h
  simp only [entry, bind_eq_ok_iff, Prod.exists, needMark, need_eq_ok_iff, value_eq_ok_iff] at h
  obtain ⟨key, _, ⟨rfl, hkey⟩, _, _, subkey, _, hread, equals, _, ⟨rfl, hequals⟩, v, _,
    ⟨rfl, hvalue⟩, semicolon, rest', ⟨rfl, hsemicolon⟩, h⟩ := h
  obtain ⟨rfl, rfl⟩ := Prod.mk.inj (Except.ok.inj h)
  obtain ⟨ks, rfl, hsubkey⟩ := subkeyPart_sound _ _ _ hread
  exact ⟨key :: (ks ++ [equals, v, semicolon]), by simp,
    .entry hkey hsubkey hequals hvalue hsemicolon⟩

theorem entry_complete (follow : List Terminal) : Complete DerivesEntry follow entry := by
  intro used e rest h _
  cases h with
  | @entry key equals v semicolon ks subkey hkey hsubkey hequals hvalue hsemicolon =>
    have hks : front (ks ++ equals :: v :: semicolon :: rest) ∈
        [.mark .doubleColon, .mark .equals] :=
      hsubkey.front_mem (by simp [hequals]) (by decide)
    have hread := subkeyPart_complete ks subkey (equals :: v :: semicolon :: rest) hsubkey
      (by simp [hequals])
    have hv : value (v :: semicolon :: rest) = .ok (v, semicolon :: rest) :=
      value_eq_ok_iff.mpr ⟨rfl, hvalue⟩
    simp only [entry, List.cons_append, List.nil_append, List.append_assoc, need_cons hkey,
      ask_of_mem hks, hread, needMark, need_cons hequals, hv, need_cons hsemicolon, ok_bind]

/-! ## Blocks -/

theorem optionalSemicolon_sound {ts rest : List Token} (h : optionalSemicolon ts = .ok rest) :
    ∃ used, ts = used ++ rest ∧ DerivesSemicolon used := by
  simp only [optionalSemicolon, bind_eq_ok_iff] at h
  obtain ⟨_, _, h⟩ := h
  split at h
  · simp only [bind_eq_ok_iff, Prod.exists, needMark, need_eq_ok_iff] at h
    obtain ⟨semicolon, rest', ⟨rfl, hsemicolon⟩, h⟩ := h
    obtain rfl := Except.ok.inj h
    exact ⟨[semicolon], rfl, .present hsemicolon⟩
  · obtain rfl := Except.ok.inj h
    exact ⟨[], rfl, .absent⟩

theorem optionalSemicolon_complete {used rest : List Token} (h : DerivesSemicolon used)
    (hrest : front rest ∈ boundary) : optionalSemicolon (used ++ rest) = .ok rest := by
  have hask : front (used ++ rest) ∈ afterBlock :=
    h.front_mem (List.mem_cons_of_mem _ hrest) (by decide)
  simp only [optionalSemicolon, ask_of_mem hask, ok_bind]
  cases h with
  | absent =>
    have hnone : front rest ≠ .mark .semicolon := by
      intro heq
      rw [heq] at hrest
      exact absurd hrest (by decide)
    simp only [List.nil_append, hnone, if_false]
  | present hsemicolon =>
    simp only [List.cons_append, List.nil_append, front_cons, hsemicolon, if_true, needMark,
      need_cons hsemicolon, ok_bind]

theorem structPart_sound : Sound DerivesStruct structPart := by
  intro ts s rest h
  simp only [structPart, bind_eq_ok_iff, Prod.exists, needMark, need_eq_ok_iff] at h
  obtain ⟨word, _, ⟨rfl, hword⟩, name, _, ⟨rfl, hname⟩, _, _, attr, _, hread, left, ts,
    ⟨rfl, hleft⟩, _, hask, fields, _, hmore, right, _, ⟨rfl, hright⟩, rest', hsemi, h⟩ := h
  obtain ⟨rfl, rfl⟩ := Prod.mk.inj (Except.ok.inj h)
  obtain ⟨as, rfl, hattr⟩ := attributePart_sound _ _ _ hread
  obtain ⟨ps, rfl, hfields⟩ := moreProperties_repeats.sound property_sound _ _ _ _ hmore
  obtain ⟨ss, rfl, hsemicolon⟩ := optionalSemicolon_sound hsemi
  have hsome : fields ≠ [] := by
    rintro rfl
    cases hfields
    simp [ask_eq_ok_iff, hright] at hask
  exact ⟨word :: name :: (as ++ left :: (ps ++ right :: ss)), by simp,
    .struct hword hname hattr hleft hfields hsome hright hsemicolon⟩

theorem structPart_complete : Complete DerivesStruct boundary structPart := by
  intro used s rest h hrest
  cases h with
  | @struct word name left right as ps ss attr fields hword hname hattr hleft hfields hsome hright
      hsemicolon =>
    have has : front (as ++ left :: (ps ++ right :: (ss ++ rest))) ∈
        [.mark .colon, .mark .leftBrace] :=
      hattr.front_mem (by simp [hleft]) (by decide)
    have hattr := attributePart_complete as attr (left :: (ps ++ right :: (ss ++ rest))) hattr
      (by simp [hleft])
    have hps : front (ps ++ right :: (ss ++ rest)) ∈ [.identifier] := by
      cases hfields with
      | nil => exact absurd rfl hsome
      | cons hfirst => simpa using hfirst.front _
    have hlength := hfields.length_le fun _ _ hp hnil => by
      have hfront := hp.front []
      simp [hnil, front] at hfront
    have hmore : moreProperties (ps ++ right :: (ss ++ rest)).length (ps ++ right :: (ss ++ rest)) =
        .ok (fields, right :: (ss ++ rest)) :=
      moreProperties_repeats.complete property_complete (by decide) (fun _ vs _ hp => hp.front vs)
        hfields (by simp; omega) hright
    simp only [structPart, List.cons_append, List.append_assoc, need_cons hword, need_cons hname,
      ask_of_mem has, hattr, needMark, need_cons hleft, ask_of_mem hps, hmore, need_cons hright,
      optionalSemicolon_complete hsemicolon hrest, ok_bind]

theorem stateBlock_sound : Sound DerivesStateBlock stateBlock := by
  intro ts entries rest h
  simp only [stateBlock, bind_eq_ok_iff, Prod.exists, needMark, need_eq_ok_iff] at h
  obtain ⟨left, ts, ⟨rfl, hleft⟩, es, _, hmore, right, _, ⟨rfl, hright⟩, rest', hsemi, h⟩ := h
  obtain ⟨rfl, rfl⟩ := Prod.mk.inj (Except.ok.inj h)
  obtain ⟨us, rfl, hentries⟩ := moreEntries_repeats.sound entry_sound _ _ _ _ hmore
  obtain ⟨ss, rfl, hsemicolon⟩ := optionalSemicolon_sound hsemi
  exact ⟨left :: (us ++ right :: ss), by simp, .block hleft hentries hright hsemicolon⟩

theorem stateBlock_complete : Complete DerivesStateBlock boundary stateBlock := by
  intro used entries rest h hrest
  cases h with
  | @block left right es ss entries hleft hentries hright hsemicolon =>
    have hlength := hentries.length_le fun _ _ he hnil => by
      have hfront := he.front []
      simp [hnil, front] at hfront
    have hmore : moreEntries ((es ++ right :: (ss ++ rest)).length + 1)
        (es ++ right :: (ss ++ rest)) = .ok (entries, right :: (ss ++ rest)) :=
      moreEntries_repeats.complete (entry_complete _) (List.Subset.refl _)
        (fun _ vs _ he => he.front vs) hentries (by simp; omega) hright
    simp only [stateBlock, List.cons_append, List.append_assoc, needMark, need_cons hleft, hmore,
      need_cons hright, optionalSemicolon_complete hsemicolon hrest, ok_bind]

end AnnotatedShader.Grammar
