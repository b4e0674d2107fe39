import AnnotatedShader.Proofs.Source.Blocks
import AnnotatedShader.Proofs.Source.Marker

set_option autoImplicit false

/-!
# Texts without markers

A text without markers stays one when a part of it is replaced by a word, a character that no marker
holds and more of the same line: such a replacement keeps the line from becoming a marker, unless
what stands in front of it in the line is one already.

`Refines` is the relation between a text and one in which such replacements have been made.  It goes
along the text and may take line feeds out, since trimmed arguments do, and it keeps `Markerless`.
The body of a source has no markers between its blocks (`markerless_of_body`), and a text without
markers is read as a source that is all body (`read_of_markerless`), with no block, no directive and
the default stage.
-/

namespace AnnotatedShader

namespace Text

/-! ## Line feeds -/

theorem isBlank_of_isLineBreak {c : Char} (h : isLineBreak c = true) : isBlank c = true := by
  simp only [isLineBreak, isBlank, Bool.or_eq_true, Bool.and_eq_true, decide_eq_true_eq,
    beq_iff_eq] at *
  omega

theorem isLineBreak_eq_false_of_not_blank {c : Char} (h : isBlank c = false) :
    isLineBreak c = false := by
  refine Bool.eq_false_iff.mpr fun hbreak => ?_
  rw [isBlank_of_isLineBreak hbreak] at h
  contradiction

/-- The last line of a text and the first one of the text behind it are one line. -/
theorem splitOn_append {text behind last first : List Char} {lines rest : List (List Char)}
    (htext : text.splitOn '\n' = lines ++ [last]) (hbehind : behind.splitOn '\n' = first :: rest) :
    (text ++ behind).splitOn '\n' = lines ++ (last ++ first) :: rest := by
  induction text generalizing lines last with
  | nil =>
    obtain ⟨rfl, rfl⟩ : lines = [] ∧ last = [] := by
      cases lines <;> simp_all
    exact hbehind
  | cons c text ih =>
    obtain ⟨init, end_, hinit⟩ := (List.eq_nil_or_concat' (text.splitOn '\n')).resolve_left
      (List.splitOn_ne_nil '\n' text)
    rw [List.splitOn_cons_eq_if_modifyHead, hinit] at htext
    rw [List.cons_append, List.splitOn_cons_eq_if_modifyHead, ih hinit]
    split at htext
    · rename_i hc
      have htext : ([] :: init) ++ [end_] = lines ++ [last] := htext
      obtain ⟨rfl, hlast⟩ := List.append_inj' htext rfl
      obtain rfl := List.singleton_inj.mp hlast
      rw [if_pos hc]
      rfl
    · rename_i hc
      rw [if_neg hc]
      cases init with
      | nil =>
        have htext : [] ++ [c :: end_] = lines ++ [last] := htext
        obtain ⟨rfl, hlast⟩ := List.append_inj' htext rfl
        obtain rfl := List.singleton_inj.mp hlast
        rfl
      | cons line init =>
        have htext : ((c :: line) :: init) ++ [end_] = lines ++ [last] := htext
        obtain ⟨rfl, hlast⟩ := List.append_inj' htext rfl
        obtain rfl := List.singleton_inj.mp hlast
        rfl

end Text

namespace Source

open AnnotatedShader.Text

/-- A text whose lines end with line feeds and are no markers. -/
structure Markerless (text : List Char) : Prop where
  breaks : ∀ c ∈ text, isLineBreak c = true → c = '\n'
  lines : ∀ line ∈ text.splitOn '\n', ¬ Marker line

theorem markerless_nil : Markerless [] := by
  refine ⟨by simp, fun line hline hmarker => ?_⟩
  obtain rfl : line = [] := by simpa using hline
  exact absurd hmarker.mem (by simp)

/-- A line that is no marker. -/
theorem markerless_line {line : List Char} (hbreaks : ∀ c ∈ line, isLineBreak c = false)
    (h : ¬ Marker line) : Markerless line := by
  refine ⟨fun c hc hbreak => ?_, fun other hother => ?_⟩
  · rw [hbreaks c hc] at hbreak
    contradiction
  · have hfeed : '\n' ∉ line := fun hmem => absurd (hbreaks _ hmem) (by decide)
    rw [List.splitOn_eq_singleton hfeed, List.mem_singleton] at hother
    rwa [hother]

theorem Markerless.below {text behind : List Char} (h : Markerless text) (h' : Markerless behind) :
    Markerless (text ++ '\n' :: behind) := by
  constructor
  · intro c hc hbreak
    rcases List.mem_append.mp hc with hc | hc
    · exact h.breaks c hc hbreak
    · rcases List.mem_cons.mp hc with rfl | hc
      · rfl
      · exact h'.breaks c hc hbreak
  · rw [List.splitOn_append_cons_self]
    exact List.forall_mem_append.mpr ⟨h.lines, h'.lines⟩

theorem markerless_joinLines {ls : List String} (h : ∀ line ∈ ls, Markerless line.toList) :
    Markerless (joinLines ls).toList := by
  rw [joinLines]
  induction ls with
  | nil => exact markerless_nil
  | cons line rest ih =>
    have hline := h line List.mem_cons_self
    cases rest with
    | nil => simpa using hline
    | cons next others =>
      rw [String.intercalate_cons_cons, String.toList_append, String.toList_append]
      simpa using hline.below (ih fun other hother => h other (List.mem_cons_of_mem _ hother))

/-! ## Replacements -/

/-- Wherever a text stands in one without markers, another can stand in its place. -/
def Refines (text text' : List Char) : Prop :=
  ∀ before behind, Markerless (before ++ (text ++ behind)) → Markerless
    (before ++ (text' ++ behind))

namespace Refines

variable {text text' text'' other other' : List Char}

theorem refl (text : List Char) : Refines text text := fun _ _ h => h

theorem trans (h : Refines text text') (h' : Refines text' text'') : Refines text text'' :=
  fun before behind hclean => h' before behind (h before behind hclean)

theorem append (h : Refines text text') (h' : Refines other other') :
    Refines (text ++ other) (text' ++ other') := by
  intro before behind hclean
  have hfirst := h before (other ++ behind) (by simpa using hclean)
  have hsecond := h' (before ++ text') behind (by simpa using hfirst)
  simpa using hsecond

theorem cons (c : Char) (h : Refines text text') : Refines (c :: text) (c :: text') :=
  (refl [c]).append h

theorem markerless (h : Refines text text') (hclean : Markerless text) : Markerless text' := by
  simpa using h [] [] (by simpa using hclean)

/-- Anything can be replaced by a word with an alien character behind it, and more of the line. -/
theorem of_alien (text : List Char) {word rest : List Char} {c : Char}
    (hword : ∀ x ∈ word, isBlank x = false) (hc : Alien c)
    (hrest : ∀ x ∈ rest, isLineBreak x = false) : Refines text (word ++ c :: rest) := by
  intro before behind hclean
  have hline : ∀ x ∈ word ++ c :: rest, isLineBreak x = false := by
    refine List.forall_mem_append.mpr ⟨?_, List.forall_mem_cons.mpr ⟨?_, hrest⟩⟩
    · exact fun x hx => isLineBreak_eq_false_of_not_blank (hword x hx)
    · exact isLineBreak_eq_false_of_not_blank hc.blank
  constructor
  · intro x hx hbreak
    simp only [List.mem_append] at hx
    rcases hx with hx | hx | hx
    · exact hclean.breaks x (by simp [hx]) hbreak
    · rw [hline x (by simpa using hx)] at hbreak
      contradiction
    · exact hclean.breaks x (by simp [hx]) hbreak
  · obtain ⟨lines, last, hbefore⟩ := (List.eq_nil_or_concat' (before.splitOn '\n')).resolve_left
      (List.splitOn_ne_nil '\n' before)
    obtain ⟨inner, ending, htext⟩ := (List.eq_nil_or_concat' (text.splitOn '\n')).resolve_left
      (List.splitOn_ne_nil '\n' text)
    obtain ⟨first, more, hbehind⟩ := List.exists_cons_of_ne_nil (List.splitOn_ne_nil '\n' behind)
    have hsingle : (word ++ c :: rest).splitOn '\n' = [] ++ [word ++ c :: rest] :=
      List.splitOn_eq_singleton fun hmem => absurd (hline _ hmem) (by decide)
    have hnew := splitOn_append hbefore (splitOn_append hsingle hbehind)
    -- The old text has the lines around the replaced part as well, and one that starts as the new one.
    obtain ⟨start, others, hold, hmore⟩ : ∃ start others,
        (text ++ behind).splitOn '\n' = start :: others ∧ more ⊆ others := by
      rw [splitOn_append htext hbehind]
      cases inner with
      | nil => exact ⟨_, _, rfl, List.Subset.refl _⟩
      | cons line inner => exact ⟨_, _, rfl, fun x hx => by simp [hx]⟩
    have hlines := hclean.lines
    rw [splitOn_append hbefore hold, List.forall_mem_append, List.forall_mem_cons] at hlines
    rw [hnew, List.forall_mem_append, List.forall_mem_cons]
    refine ⟨hlines.1, fun hmarker => hlines.2.1 ?_, fun line hline => hlines.2.2 line (hmore hline)⟩
    exact Marker.committed hc hword (by simpa using hmarker) start

end Refines

/-! ## Reading -/

/-- The lines of a text that a line feed ends. -/
theorem splitLines_append_feed {text : List Char}
    (h : ∀ c ∈ text, isLineBreak c = true → c = '\n') :
    splitLines (text ++ ['\n']) = text.splitOn '\n' := by
  induction text with
  | nil => rfl
  | cons c rest ih =>
    have ih := ih fun x hx => h x (List.mem_cons_of_mem _ hx)
    obtain ⟨first, others, hfirst⟩ := List.exists_cons_of_ne_nil (List.splitOn_ne_nil '\n' rest)
    rw [List.cons_append, List.splitOn_cons_eq_if_modifyHead]
    by_cases hc : c = '\n'
    · subst hc
      rw [splitLines, ih]
      · rfl
      · simp
    · have hline : isLineBreak c = false :=
        Bool.eq_false_iff.mpr fun hbreak => hc (h c List.mem_cons_self hbreak)
      have hreturn : c ≠ '\r' := by
        rintro rfl
        contradiction
      rw [splitLines, hline, ih, hfirst]
      · simp [hc, consToFirst]
      · simp [hreturn]

section Feeds

variable {text : String} (h : ∀ c ∈ text.toList, isLineBreak c = true → c = '\n')

include h

theorem lines_append_feed :
    lines (text ++ "\n") = (text.toList.splitOn '\n').map String.ofList := by
  rw [lines, String.toList_append]
  exact congrArg _ (splitLines_append_feed h)

/-- The lines of a text are joined to the text again. -/
theorem joinLines_lines : joinLines (lines (text ++ "\n")) = text := by
  have hid : String.toList ∘ String.ofList = id := funext fun _ => String.toList_ofList
  rw [← String.toList_inj, joinLines, String.toList_intercalate, lines_append_feed h, List.map_map,
    hid, List.map_id]
  exact List.intercalate_splitOn '\n'

end Feeds

/-- Body lines are no markers. -/
theorem outsideRole_of_mem_zip {inside : Bool} {ls : List String} {line : String}
    (h : (line, .body) ∈ ls.zip (rolesFrom inside ls)) : outsideRole line = .body := by
  induction ls generalizing inside with
  | nil => simp at h
  | cons first rest ih =>
    cases inside with
    | true =>
      rcases List.mem_cons.mp h with h | h
      · obtain ⟨_, hrole⟩ := Prod.mk.inj h
        unfold insideRole at hrole
        split at hrole <;> contradiction
      · exact ih h
    | false =>
      rcases List.mem_cons.mp h with h | h
      · obtain ⟨rfl, hrole⟩ := Prod.mk.inj h
        exact hrole.symm
      · exact ih h

theorem markerless_of_body {file text : String} {a : Annotated}
    (hread : (read file text).outcome = .ok a) {line : String}
    (h : (line, .body) ∈ a.lines.zip a.roles) : Markerless line.toList := by
  obtain ⟨hlines, _⟩ := read_eq_ok hread
  have hrole : outsideRole line = .body := by
    rw [roles_of_read hread] at h
    exact outsideRole_of_mem_zip h
  refine markerless_line (fun c hc => ?_) ?_
  · have hmem := (List.of_mem_zip h).1
    rw [hlines] at hmem
    obtain ⟨chars, hchars, rfl⟩ := List.mem_map.mp hmem
    rw [String.toList_ofList] at hc
    exact not_isLineBreak_of_mem_splitLines hchars hc
  · rw [← outsideRole_eq_body_iff, String.ofList_toList]
    exact hrole

theorem rolesFrom_of_body {ls : List String} (h : ∀ line ∈ ls, outsideRole line = .body) :
    rolesFrom false ls = ls.map fun _ => .body := by
  induction ls with
  | nil => rfl
  | cons line rest ih =>
    have hline := h line List.mem_cons_self
    have hsentinel : isSentinel line = false := by
      unfold outsideRole at hline
      split at hline
      · contradiction
      · rename_i hother
        exact Bool.eq_false_iff.mpr hother
    rw [rolesFrom, hline, hsentinel, ih fun other hother => h other (List.mem_cons_of_mem _ hother)]
    rfl

/-- Among body lines there are no directives and no blocks. -/
theorem nothing_of_body (line : Nat) (ls : List String) :
    directivesFrom line (ls.zip (ls.map fun _ => .body)) = [] ∧
      unclosedFrom line none (ls.map fun _ => .body) = none ∧
      blocksFrom line none (ls.map fun _ => .body) = [] := by
  induction ls generalizing line with
  | nil => exact ⟨rfl, rfl, rfl⟩
  | cons text rest ih => exact ih (line + 1)

theorem directiveLines_of_body (stage : Stage) (ls : List String) :
    Annotated.directiveLines ⟨stage, ls, ls.map fun _ => .body⟩ = [] := by
  refine List.filterMap_eq_nil_iff.mpr fun entry hentry => ?_
  obtain ⟨_, _, hbody⟩ := List.mem_map.mp (List.fst_mem_of_mem_zipIdx hentry)
  simp only [← hbody]
  rfl

/-- A text without markers is read as body text for the default stage. -/
theorem read_of_markerless {text : String} (h : Markerless text.toList) (file : String) :
    (read file (text ++ "\n")).outcome = .ok ⟨defaultStage, lines (text ++ "\n"),
      (lines (text ++ "\n")).map fun _ => .body⟩ := by
  have hroles : roles (lines (text ++ "\n")) = (lines (text ++ "\n")).map fun _ => .body := by
    refine rolesFrom_of_body fun line hline => ?_
    rw [lines_append_feed h.breaks] at hline
    obtain ⟨chars, hchars, rfl⟩ := List.mem_map.mp hline
    exact outsideRole_eq_body_iff.mpr (h.lines chars hchars)
  obtain ⟨hdirectives, hclosed, _⟩ := nothing_of_body 1 (lines (text ++ "\n"))
  simp only [read, hroles, hdirectives, hclosed, List.find?_nil]
  rfl

end Source

end AnnotatedShader
