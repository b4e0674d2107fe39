import AnnotatedShader.Proofs.Grammar.Reading

set_option autoImplicit false

/-!
# Reading whole texts

The tokens of a text are read as phrases exactly when they derive phrases (`phrases_eq_ok_iff`), and
they derive no others: the grammar is unambiguous because a reader with one token of lookahead
follows it (`DerivesText.unique`).

Statements are told apart by their first word, and what follows `const` by whether `struct` is next.
Soundness is shown statement by statement.  Completeness takes the statement that is derived and
follows its reader, with the front of the rest asked for where a semicolon may be missing.  A whole
text is read statement by statement, each of which takes at least one token, so the number of tokens
is enough fuel.
-/

namespace AnnotatedShader.Grammar

/-! ## Statements -/

theorem renamePart_sound : Sound DerivesRename renamePart := by
  intro ts rename rest h
  unfold renamePart at h
  split at h
  · simp only [bind_eq_ok_iff, Prod.exists, need_eq_ok_iff] at h
    obtain ⟨word, _, ⟨rfl, hword⟩, name, rest', ⟨rfl, hname⟩, h⟩ := h
    obtain ⟨rfl, rfl⟩ := Prod.mk.inj (Except.ok.inj h)
    exact ⟨[word, name], rfl, .present hword hname⟩
  · obtain ⟨rfl, rfl⟩ := Prod.mk.inj (Except.ok.inj h)
    exact ⟨[], rfl, .absent⟩

theorem renamePart_complete : Complete DerivesRename [.mark .semicolon] renamePart := by
  intro used rename rest h hrest
  unfold renamePart
  cases h with
  | absent =>
    have hnone : front rest ≠ .word .as_ := by
      intro heq
      simp [heq] at hrest
    simp only [List.nil_append, hnone, if_false]
  | present hword hname =>
    simp only [List.cons_append, List.nil_append, front_cons, hword, if_true, need_cons hword,
      need_cons hname, ok_bind]

theorem useStatement_sound : Sound (DerivesBehind .use_) useStatement := by
  intro ts tree rest h
  simp only [useStatement, bind_eq_ok_iff, Prod.exists, needMark, need_eq_ok_iff] at h
  obtain ⟨file, _, ⟨rfl, hfile⟩, colons, _, ⟨rfl, hcolons⟩, member, _, ⟨rfl, hmember⟩, _, _,
    rename, _, hread, semicolon, rest', ⟨rfl, hsemicolon⟩, h⟩ := h
  obtain ⟨rfl, rfl⟩ := Prod.mk.inj (Except.ok.inj h)
  obtain ⟨rs, rfl, hrename⟩ := renamePart_sound _ _ _ hread
  exact ⟨file :: colons :: member :: (rs ++ [semicolon]), by simp,
    .use hfile hcolons hmember hrename hsemicolon⟩

theorem constStatement_sound : Sound (DerivesBehind .const_) constStatement := by
  intro ts tree rest h
  simp only [constStatement, bind_eq_ok_iff] at h
  obtain ⟨_, _, h⟩ := h
  split at h
  · simp only [bind_eq_ok_iff, Prod.exists] at h
    obtain ⟨name, attr, fields, rest', hread, h⟩ := h
    obtain ⟨rfl, rfl⟩ := Prod.mk.inj (Except.ok.inj h)
    obtain ⟨used, rfl, hstruct⟩ := structPart_sound _ _ _ hread
    exact ⟨used, rfl, .buffer hstruct⟩
  · simp only [bind_eq_ok_iff, Prod.exists] at h
    obtain ⟨p, rest', hread, h⟩ := h
    obtain ⟨rfl, rfl⟩ := Prod.mk.inj (Except.ok.inj h)
    obtain ⟨used, rfl, hproperty⟩ := property_sound _ _ _ hread
    exact ⟨used, rfl, .constant hproperty⟩

theorem outputStatement_sound : Sound (DerivesBehind .output_) outputStatement := by
  intro ts tree rest h
  simp only [outputStatement, bind_eq_ok_iff, Prod.exists] at h
  obtain ⟨p, rest', hread, h⟩ := h
  obtain ⟨rfl, rfl⟩ := Prod.mk.inj (Except.ok.inj h)
  obtain ⟨used, rfl, hproperty⟩ := property_sound _ _ _ hread
  exact ⟨used, rfl, .output hproperty⟩

theorem vertexFormatStatement_sound : Sound (DerivesBehind .vformat_) vertexFormatStatement := by
  intro ts tree rest h
  simp only [vertexFormatStatement, bind_eq_ok_iff, Prod.exists] at h
  obtain ⟨name, attr, fields, rest', hread, h⟩ := h
  obtain ⟨rfl, rfl⟩ := Prod.mk.inj (Except.ok.inj h)
  obtain ⟨used, rfl, hstruct⟩ := structPart_sound _ _ _ hread
  exact ⟨used, rfl, .vertexFormat hstruct⟩

theorem pipelineStatement_sound : Sound (DerivesBehind .pipeline_) pipelineStatement := by
  intro ts tree rest h
  simp only [pipelineStatement, bind_eq_ok_iff, Prod.exists, need_eq_ok_iff] at h
  obtain ⟨name, _, ⟨rfl, hname⟩, entries, rest', hread, h⟩ := h
  obtain ⟨rfl, rfl⟩ := Prod.mk.inj (Except.ok.inj h)
  obtain ⟨used, rfl, hblock⟩ := stateBlock_sound _ _ _ hread
  exact ⟨name :: used, rfl, .pipeline hname hblock⟩

theorem blendFuncStatement_sound : Sound (DerivesBehind .blendfunc_) blendFuncStatement := by
  intro ts tree rest h
  simp only [blendFuncStatement, bind_eq_ok_iff, Prod.exists, need_eq_ok_iff] at h
  obtain ⟨name, _, ⟨rfl, hname⟩, _, _, h⟩ := h
  split at h
  · simp only [bind_eq_ok_iff, Prod.exists, needMark, need_eq_ok_iff] at h
    obtain ⟨semicolon, rest', ⟨rfl, hsemicolon⟩, h⟩ := h
    obtain ⟨rfl, rfl⟩ := Prod.mk.inj (Except.ok.inj h)
    exact ⟨[name, semicolon], rfl, .blendFuncAlone hname hsemicolon⟩
  · simp only [bind_eq_ok_iff, Prod.exists] at h
    obtain ⟨entries, rest', hread, h⟩ := h
    obtain ⟨rfl, rfl⟩ := Prod.mk.inj (Except.ok.inj h)
    obtain ⟨used, rfl, hblock⟩ := stateBlock_sound _ _ _ hread
    exact ⟨name :: used, rfl, .blendFunc hname hblock⟩

theorem statement_sound : Sound DerivesStatement statement := by
  intro ts tree rest h
  cases ts with
  | nil => simp [statement] at h
  | cons word ts =>
    rw [statement] at h
    split at h
    · obtain ⟨used, rfl, hbehind⟩ := useStatement_sound _ _ _ h
      exact ⟨word :: used, rfl, .statement ‹_› hbehind⟩
    · obtain ⟨used, rfl, hbehind⟩ := constStatement_sound _ _ _ h
      exact ⟨word :: used, rfl, .statement ‹_› hbehind⟩
    · obtain ⟨used, rfl, hbehind⟩ := outputStatement_sound _ _ _ h
      exact ⟨word :: used, rfl, .statement ‹_› hbehind⟩
    · obtain ⟨used, rfl, hbehind⟩ := vertexFormatStatement_sound _ _ _ h
      exact ⟨word :: used, rfl, .statement ‹_› hbehind⟩
    · obtain ⟨used, rfl, hbehind⟩ := pipelineStatement_sound _ _ _ h
      exact ⟨word :: used, rfl, .statement ‹_› hbehind⟩
    · obtain ⟨used, rfl, hbehind⟩ := blendFuncStatement_sound _ _ _ h
      exact ⟨word :: used, rfl, .statement ‹_› hbehind⟩
    · simp at h

theorem DerivesStruct.front {used : List Token}
    {s : String × Option AttributeTree × List PropertyTree} (h : DerivesStruct used s)
    (rest : List Token) : front (used ++ rest) = .word .struct_ := by
  cases h with
  | struct hword => exact hword

theorem DerivesStateBlock.front {used : List Token} {entries : List EntryTree}
    (h : DerivesStateBlock used entries) (rest : List Token) :
    front (used ++ rest) = .mark .leftBrace := by
  cases h with
  | block hleft => exact hleft

/-- What stands behind a reserved word is read by the reader of its statements. -/
theorem statement_complete : Complete DerivesStatement boundary statement := by
  intro used tree rest h hrest
  have hproperty : front rest ∈ afterProperty :=
    List.mem_cons_of_mem _ (List.mem_cons_of_mem _ hrest)
  cases h with
  | @statement word w ts tree hword hbehind =>
    cases hbehind with
    | @use file colons member semicolon rs rename hfile hcolons hmember hrename hsemicolon =>
      have hask : Grammar.front (rs ++ semicolon :: rest) ∈ [.word .as_, .mark .semicolon] :=
        hrename.front_mem (by simp [hsemicolon]) (by decide)
      have hread := renamePart_complete rs rename (semicolon :: rest) hrename (by simp [hsemicolon])
      simp only [List.cons_append, List.nil_append, List.append_assoc, statement, hword,
        useStatement, need_cons hfile, needMark, need_cons hcolons, need_cons hmember,
        ask_of_mem hask, hread, need_cons hsemicolon, ok_bind]
    | buffer hstruct =>
      have hfront := hstruct.front rest
      have hask : Grammar.front (ts ++ rest) ∈ [.identifier, .word .struct_] := by simp [hfront]
      simp only [List.cons_append, statement, hword, constStatement, ask_of_mem hask, hfront,
        if_true, structPart_complete _ _ _ hstruct hrest, ok_bind]
    | constant hderives =>
      have hfront := hderives.front rest
      have hask : Grammar.front (ts ++ rest) ∈ [.identifier, .word .struct_] := by simp [hfront]
      simp only [List.cons_append, statement, hword, constStatement, ask_of_mem hask, hfront,
        reduceCtorEq, if_false, property_complete _ _ _ hderives hproperty, ok_bind]
    | output hderives =>
      simp only [List.cons_append, statement, hword, outputStatement,
        property_complete _ _ _ hderives hproperty, ok_bind]
    | vertexFormat hstruct =>
      simp only [List.cons_append, statement, hword, vertexFormatStatement,
        structPart_complete _ _ _ hstruct hrest, ok_bind]
    | pipeline hname hblock =>
      simp only [List.cons_append, statement, hword, pipelineStatement, need_cons hname,
        stateBlock_complete _ _ _ hblock hrest, ok_bind]
    | @blendFuncAlone name semicolon hname hsemicolon =>
      have hask : Grammar.front (semicolon :: rest) ∈ [.mark .semicolon, .mark .leftBrace] := by
        simp [hsemicolon]
      simp only [List.cons_append, List.nil_append, statement, hword, blendFuncStatement,
        need_cons hname, ask_of_mem hask, front_cons, hsemicolon, if_true, needMark,
        need_cons hsemicolon, ok_bind]
    | @blendFunc name es entries hname hblock =>
      have hfront := hblock.front rest
      have hask : Grammar.front (es ++ rest) ∈ [.mark .semicolon, .mark .leftBrace] := by
        simp [hfront]
      simp only [List.cons_append, statement, hword, blendFuncStatement, need_cons hname,
        ask_of_mem hask, hfront, reduceCtorEq, if_false, Terminal.mark.injEq,
        stateBlock_complete _ _ _ hblock hrest, ok_bind]

/-! ## Texts -/

theorem consumed_append (used rest : List Token) : consumed (used ++ rest) rest = used := by
  simp [consumed]

theorem DerivesPhrase.ne_nil {ts : List Token} {p : Phrase} (h : DerivesPhrase ts p) : ts ≠ [] := by
  cases h.2 with
  | statement => simp

theorem phrasesFrom_sound {fuel : Nat} {ts : List Token} {ps : List Phrase}
    (hfuel : ts.length ≤ fuel) (h : phrasesFrom fuel ts = .ok ps) : DerivesText ts ps := by
  induction fuel generalizing ts ps with
  | zero =>
    obtain rfl := List.length_eq_zero_iff.mp (Nat.le_zero.mp hfuel)
    obtain rfl := Except.ok.inj h
    exact .nil
  | succ fuel ih =>
    cases ts with
    | nil =>
      obtain rfl := Except.ok.inj h
      exact .nil
    | cons t ts =>
      simp only [phrasesFrom, bind_eq_ok_iff, Prod.exists] at h
      obtain ⟨tree, rest, hread, others, hmore, h⟩ := h
      obtain rfl := Except.ok.inj h
      obtain ⟨used, heq, hstatement⟩ := statement_sound _ _ _ hread
      have hphrase : DerivesPhrase used ⟨tree, used⟩ := ⟨rfl, hstatement⟩
      have hpos := List.length_pos_iff.mpr hphrase.ne_nil
      rw [heq, consumed_append]
      refine .cons hphrase (ih ?_ hmore)
      rw [heq, List.length_append] at hfuel
      omega

theorem phrasesFrom_complete {fuel : Nat} {ts : List Token} {ps : List Phrase}
    (h : DerivesText ts ps) (hfuel : ps.length ≤ fuel) : phrasesFrom fuel ts = .ok ps := by
  induction h generalizing fuel with
  | nil => cases fuel <;> rfl
  | @cons us vs p ps hfirst hothers ih =>
    cases fuel with
    | zero => simp at hfuel
    | succ fuel =>
      have hnext : front vs ∈ boundary := by
        have hfront := hothers.front_mem statementStarts [.endOfInput]
          (fun _ vs _ hp => hp.2.front vs) (show front [] ∈ _ by simp [front])
        rw [List.append_nil] at hfront
        exact hfront
      have hread := statement_complete us p.tree vs hfirst.2 hnext
      have hmore := ih (by simpa using hfuel)
      obtain ⟨t, ts, heq⟩ := List.exists_cons_of_ne_nil
        (List.append_ne_nil_of_left_ne_nil hfirst.ne_nil vs)
      rw [heq] at hread ⊢
      simp only [phrasesFrom, hread, hmore, ok_bind]
      rw [← heq, consumed_append, ← hfirst.1]

/-- Phrases are read exactly where they are derived. -/
theorem phrases_eq_ok_iff {ts : List Token} {ps : List Phrase} :
    phrases ts = .ok ps ↔ DerivesText ts ps :=
  ⟨phrasesFrom_sound (Nat.le_refl _), fun h =>
    phrasesFrom_complete h (h.length_le fun _ _ hp => hp.ne_nil)⟩

/-- The tokens of a text derive it in one way. -/
theorem DerivesText.unique {ts : List Token} {ps qs : List Phrase} (hp : DerivesText ts ps)
    (hq : DerivesText ts qs) : ps = qs :=
  Except.ok.inj ((phrases_eq_ok_iff.mpr hp).symm.trans (phrases_eq_ok_iff.mpr hq))

end AnnotatedShader.Grammar
