import AnnotatedShader.Proofs.Source.Blocks
import AnnotatedShader.Proofs.Statement.Parsing

set_option autoImplicit false

/-!
# The lines of tokens

A token stands in the line that the line feeds in front of it count to.  So whatever is read off an
annotation text starts in an annotation (`annotated_of_parse`).

Positions are advanced character by character (`Position.line_advance`), and the annotation text is
joined from one line for each line of the source, blank where the line is no annotation.  A token
starts with a character that is not blank, so its line is one of a block (`exists_line_of_flatMap`).
The position of a statement is that of its first token.
-/

namespace AnnotatedShader

theorem Position.line_advance (p : Position) (text : List Char) :
    (p.advance text).line = p.line + text.count '\n' := by
  induction text generalizing p with
  | nil => rfl
  | cons c rest ih =>
    rw [advance_cons, ih, next]
    by_cases hc : c = '\n'
    · rw [if_pos hc, hc, List.count_cons_self]
      exact Nat.add_right_comm p.line 1 (rest.count '\n')
    · rw [if_neg hc, List.count_cons_of_ne hc]

/-! ## Tokens in a text -/

namespace Lexer

open AnnotatedShader.Text

theorem isGap_eq_false_of_isNameStart {c : Char} (h : isNameStart c = true) : isGap c = false := by
  refine Bool.eq_false_iff.mpr fun hgap => ?_
  simp only [isGap, Bool.or_eq_true, beq_iff_eq] at hgap
  rcases hgap with (((rfl | rfl) | rfl) | rfl) | rfl <;> exact absurd h (by decide)

/-- Only a blank starts with a gap. -/
theorem isGap_eq_false_of_munch {c : Char} {rest piece : List Char} {terminal : Terminal}
    (h : munch (c :: rest) = some (terminal, piece)) (hblank : terminal ≠ .blank) :
    isGap c = false := by
  simp only [munch] at h
  split at h
  · rename_i hstart
    exact isGap_eq_false_of_isNameStart hstart
  · split at h
    · exact absurd (Prod.mk.inj (Option.some.inj h)).1.symm hblank
    · rename_i hgap
      exact Bool.eq_false_iff.mpr hgap

/-- A token that is no blank stands at its position, and starts with a character that is no gap. -/
theorem Cut.exists_place {p : Position} {text : List Char} {ts : List Token} (h : Cut p text ts)
    {t : Token} (ht : t ∈ ts) (hblank : t.terminal ≠ .blank) : ∃ before c after,
      text = before ++ c :: after ∧ isGap c = false ∧ t.position = p.advance before := by
  induction h with
  | done => simp at ht
  | @piece p terminal piece rest ts hmunch hrest ih =>
    rcases List.mem_cons.mp ht with rfl | ht
    · obtain ⟨c, others, heq⟩ := List.exists_cons_of_ne_nil
        (List.append_ne_nil_of_left_ne_nil (isPiece_of_munch hmunch).ne_nil rest)
      rw [heq] at hmunch ⊢
      exact ⟨[], c, others, rfl, isGap_eq_false_of_munch hmunch hblank, rfl⟩
    · obtain ⟨before, c, after, rfl, hgap, hposition⟩ := ih ht
      exact ⟨piece ++ before, c, after, (List.append_assoc ..).symm, hgap,
        hposition.trans (p.advance_append piece before).symm⟩

end Lexer

/-! ## Characters in joined lines -/

namespace Text

theorem toList_joinLines {ls : List String} (hne : ls ≠ []) :
    (joinLines ls).toList ++ ['\n'] = ls.flatMap fun line => line.toList ++ ['\n'] := by
  induction ls with
  | nil => contradiction
  | cons line rest ih =>
    cases rest with
    | nil => simp [joinLines]
    | cons next others =>
      rw [List.flatMap_cons, ← ih (by simp), joinLines, String.intercalate_cons_cons]
      simp [joinLines]

/-- A character stands in the line that the line feeds in front of it count to. -/
theorem exists_line_of_flatMap {ls : List String} (hls : ∀ line ∈ ls, '\n' ∉ line.toList)
    {before after : List Char} {c : Char} (hc : c ≠ '\n')
    (h : (ls.flatMap fun line => line.toList ++ ['\n']) = before ++ c :: after) :
    ∃ line, ls[before.count '\n']? = some line ∧ c ∈ line.toList := by
  induction ls generalizing before with
  | nil => simp at h
  | cons line rest ih =>
    rw [List.flatMap_cons, List.append_assoc, List.append_eq_append_iff] at h
    rcases h with ⟨behind, rfl, h⟩ | ⟨front, hline, h⟩
    · -- The character stands behind the line, so also behind its line feed.
      have hfree : line.toList.count '\n' = 0 :=
        List.count_eq_zero.mpr (hls line List.mem_cons_self)
      cases behind with
      | nil => exact absurd (List.cons.inj h).1.symm hc
      | cons d behind =>
        rw [List.singleton_append, List.cons_append, List.cons.injEq] at h
        obtain ⟨rfl, hrest⟩ := h
        obtain ⟨found, hfound, hmem⟩ :=
          ih (fun other hother => hls other (List.mem_cons_of_mem _ hother)) hrest
        refine ⟨found, ?_, hmem⟩
        rw [List.count_append, hfree, List.count_cons_self, Nat.zero_add, List.getElem?_cons_succ]
        exact hfound
    · have hfree : before.count '\n' = 0 := by
        refine List.count_eq_zero.mpr fun hmem => hls line List.mem_cons_self ?_
        rw [hline]
        exact List.mem_append_left _ hmem
      refine ⟨line, by rw [hfree]; rfl, ?_⟩
      cases front with
      | nil => exact absurd (List.cons.inj h).1 hc
      | cons d front =>
        obtain ⟨rfl, -⟩ := List.cons.inj h
        rw [hline]
        exact List.mem_append_right _ List.mem_cons_self

end Text

/-! ## Statements of an annotation text -/

namespace Statement

/-- The meaning of a phrase stands where the phrase starts. -/
theorem position_of_ofPhrases {file : String} {ps : List Grammar.Phrase} {ss : List Statement}
    (h : ofPhrases file ps = .ok ss) {s : Statement} (hs : s ∈ ss) :
    ∃ p ∈ ps, s.position = p.start := by
  induction ps generalizing ss with
  | nil =>
    obtain rfl := Except.ok.inj h
    simp at hs
  | cons p ps ih =>
    simp only [ofPhrases, bind_eq_ok_iff] at h
    obtain ⟨body, _, others, hothers, h⟩ := h
    obtain rfl := Except.ok.inj h
    rcases List.mem_cons.mp hs with rfl | hs
    · exact ⟨p, List.mem_cons_self, rfl⟩
    · obtain ⟨q, hq, hposition⟩ := ih hothers hs
      exact ⟨q, List.mem_cons_of_mem _ hq, hposition⟩

/-- A statement starts at a token that is no blank. -/
theorem exists_token_of_parse {file text : String} {ss : List Statement}
    (h : parse file text = .ok ss) {s : Statement} (hs : s ∈ ss) :
    ∃ ts, Lexer.Cut .start text.toList ts ∧
      ∃ t ∈ ts, t.terminal ≠ .blank ∧ s.position = t.position := by
  obtain ⟨ps, ⟨ts, hcut, hderives⟩, found, hfound, rfl⟩ := parse_eq_ok_iff.mp h
  refine ⟨ts, hcut, ?_⟩
  rw [inOrder, List.mem_mergeSort, List.mem_append] at hs
  rcases hs with hs | hs
  · obtain ⟨p, hp, hposition⟩ := position_of_ofPhrases hfound hs
    obtain ⟨us, hsub, hphrase⟩ := hderives.exists_of_mem hp
    obtain ⟨t, rest, htokens⟩ := List.exists_cons_of_ne_nil hphrase.ne_nil
    have ht : t ∈ significant ts := hsub (by rw [htokens]; exact List.mem_cons_self)
    simp only [significant, List.mem_filter, decide_eq_true_eq] at ht
    refine ⟨t, ht.1, ht.2.1, hposition.trans ?_⟩
    rw [Grammar.Phrase.start, hphrase.1, htokens]
    rfl
  · obtain ⟨t, ht, rfl⟩ := List.mem_map.mp hs
    rw [Lexer.scan_of_cut hcut] at ht
    have hvisible : t ∈ Lexer.visible ts := (List.mem_filter.mp ht).1
    simp only [Lexer.visible, List.mem_filter, decide_eq_true_eq] at hvisible
    exact ⟨t, hvisible.1, hvisible.2, rfl⟩

end Statement

namespace Source

/-- The lines of a source that is read hold no line feeds. -/
theorem not_mem_of_mem_lines {file text : String} {a : Annotated}
    (h : (read file text).outcome = .ok a) {line : String} (hline : line ∈ a.lines) :
    '\n' ∉ line.toList := by
  rw [(read_eq_ok h).1] at hline
  obtain ⟨cs, hcs, rfl⟩ := List.mem_map.mp hline
  intro hmem
  rw [String.toList_ofList] at hmem
  exact absurd (Text.not_isLineBreak_of_mem_splitLines hcs hmem) (by decide)

/-- A statement of an annotation text starts in an annotation. -/
theorem annotated_of_parse {file text : String} {a : Annotated}
    (h : (read file text).outcome = .ok a) {ss : List Statement}
    (hparse : Statement.parse file a.annotationText = .ok ss) {s : Statement} (hs : s ∈ ss) :
    ∃ k, s.position.line = 1 + k ∧ a.roles[k]? = some .annotated := by
  obtain ⟨ts, hcut, t, ht, hblank, hposition⟩ := Statement.exists_token_of_parse hparse hs
  obtain ⟨before, c, after, htext, hgap, hplace⟩ := hcut.exists_place ht hblank
  refine ⟨before.count '\n', ?_, ?_⟩
  · rw [hposition, hplace, Position.line_advance]
    rfl
  have hc : c ≠ '\n' := by
    rintro rfl
    exact absurd hgap (by decide)
  rw [Annotated.annotationText, String.toList_append] at htext
  generalize hls : (a.lines.zip a.roles).map Annotated.annotationLine = ls at htext
  have hne : ls ≠ [] := by
    rintro rfl
    have hfeed : ['\n'] = before ++ c :: after := htext
    have hmem : c ∈ ['\n'] := hfeed ▸ List.mem_append_right _ List.mem_cons_self
    exact hc (List.mem_singleton.mp hmem)
  have hfree : ∀ line ∈ ls, '\n' ∉ line.toList := by
    subst hls
    intro line hline
    obtain ⟨⟨text, role⟩, hpair, rfl⟩ := List.mem_map.mp hline
    have htext := not_mem_of_mem_lines h (List.of_mem_zip hpair).1
    cases role <;> simp [Annotated.annotationLine, htext]
  obtain ⟨line, hline, hmem⟩ :=
    Text.exists_line_of_flatMap hfree hc ((Text.toList_joinLines hne).symm.trans htext)
  rw [← hls, List.getElem?_map, Option.map_eq_some_iff] at hline
  obtain ⟨⟨text, role⟩, hpair, rfl⟩ := hline
  have hrole : role = .annotated := by
    cases role <;> first | rfl | simp [Annotated.annotationLine] at hmem
  rw [List.getElem?_zip_eq_some] at hpair
  rw [← hrole]
  exact hpair.2

end Source

end AnnotatedShader
