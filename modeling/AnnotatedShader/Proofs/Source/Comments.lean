import AnnotatedShader.Glsl.Generate
import AnnotatedShader.Proofs.Source.Coordinates
import AnnotatedShader.Proofs.Source.Marker

set_option autoImplicit false

/-!
# Sources without comments

Where an annotation loses its comment, no line changes its role: what is left of the line holds no
`#`, so it is no sentinel.  The source is read as before, and differs in its annotations only.  What
is generated from a source does not look at them, and the annotation text has the same tokens but
for comments.

There are two ways to say that a text has lost comments, by its lines and by its characters, where a
line may be ended by any line break.  The first section has lines (`Uncommented`), the second texts
(`uncommented`).  `read_uncommented` compares the outcomes of reading, faults among them, and
`generate_bare` says that generation does not see the annotations of a source.
-/

namespace AnnotatedShader

namespace Source

/-! ## Lines that lose their comments -/

/-- A line as far as its comment. -/
def withoutComment (line : String) : String := String.ofList (Lexer.withoutComment line.toList)

/-- A line with its role, and what has become of it: it stays as it is, or is an annotation that has
lost its comment. -/
def Uncommented (entry : String × LineRole) (line : String) : Prop :=
  line = entry.1 ∨ entry.2 = .annotated ∧ line = withoutComment entry.1

/-- Some annotations among lines lose their comments. -/
def UncommentedLines (ls ls' : List String) : Prop :=
  List.Forall₂ Uncommented (ls.zip (roles ls)) ls'

theorem isSentinel_withoutComment (line : String) : isSentinel (withoutComment line) = false := by
  refine Bool.eq_false_iff.mpr fun h => ?_
  obtain ⟨front, behind, _, _, hline⟩ := isSentinel_iff.mp h
  have hmem : '#' ∈ Lexer.withoutComment line.toList := by
    rw [hline]
    exact List.mem_append_right _ (List.mem_append_left _ List.mem_cons_self)
  simpa using List.mem_takeWhile_imp hmem

theorem insideRole_eq {line : String} (h : isSentinel line = false) :
    insideRole line = .annotated := by
  rw [insideRole, h]
  rfl

theorem outsideRole_ne_annotated (line : String) : outsideRole line ≠ .annotated := by
  unfold outsideRole
  split
  · simp
  · split <;> simp

/-- No line changes its role. -/
theorem rolesFrom_uncommented {inside : Bool} {ls ls' : List String}
    (h : List.Forall₂ Uncommented (ls.zip (rolesFrom inside ls)) ls') :
    rolesFrom inside ls' = rolesFrom inside ls := by
  induction ls generalizing inside ls' with
  | nil =>
    obtain rfl : ls' = [] := List.forall₂_nil_left_iff.mp h
    rfl
  | cons line rest ih =>
    cases inside with
    | true =>
      rw [rolesFrom, List.zip_cons_cons, List.forall₂_cons_left_iff] at h
      obtain ⟨line', rest', hline, hrest, rfl⟩ := h
      rcases hline with rfl | ⟨hrole, rfl⟩
      · rw [rolesFrom, rolesFrom, ih hrest]
      · have hcut := isSentinel_withoutComment line
        have hsentinel : isSentinel line = false := by
          change insideRole line = .annotated at hrole
          unfold insideRole at hrole
          split at hrole
          · cases hrole
          · rename_i hother
            exact Bool.eq_false_iff.mpr hother
        rw [hsentinel] at hrest
        rw [rolesFrom, rolesFrom, insideRole_eq hcut, insideRole_eq hsentinel, hcut, hsentinel,
          ih hrest]
    | false =>
      rw [rolesFrom, List.zip_cons_cons, List.forall₂_cons_left_iff] at h
      obtain ⟨line', rest', hline, hrest, rfl⟩ := h
      rcases hline with rfl | ⟨hrole, _⟩
      · rw [rolesFrom, rolesFrom, ih hrest]
      · exact absurd hrole (outsideRole_ne_annotated line)

/-- A line with its role, blank if it is an annotation. -/
def blanked : String × LineRole → String
  | (_, .annotated) => ""
  | (text, _) => text

/-- Two lines of one role that are the same, or annotations that are the same but for comments. -/
structure SameButComment (entry entry' : String × LineRole) : Prop where
  role : entry'.2 = entry.2
  blanked : Source.blanked entry' = Source.blanked entry
  annotation : Lexer.withoutComment (Annotated.annotationLine entry').toList =
    Lexer.withoutComment (Annotated.annotationLine entry).toList

theorem withoutComment_idem (line : List Char) :
    Lexer.withoutComment (Lexer.withoutComment line) = Lexer.withoutComment line :=
  List.takeWhile_idem ..

theorem sameButComment_of_uncommented {ls ls' : List String} {rs : List LineRole}
    (h : List.Forall₂ Uncommented (ls.zip rs) ls') :
    List.Forall₂ SameButComment (ls.zip rs) (ls'.zip rs) := by
  induction ls generalizing ls' rs with
  | nil =>
    obtain rfl : ls' = [] := List.forall₂_nil_left_iff.mp h
    exact .nil
  | cons line rest ih =>
    cases rs with
    | nil =>
      obtain rfl : ls' = [] := List.forall₂_nil_left_iff.mp h
      exact .nil
    | cons role others =>
      rw [List.zip_cons_cons, List.forall₂_cons_left_iff] at h
      obtain ⟨line', rest', hline, hrest, rfl⟩ := h
      refine .cons ?_ (ih hrest)
      rcases hline with rfl | ⟨hrole, rfl⟩
      · exact ⟨rfl, rfl, rfl⟩
      · change role = .annotated at hrole
        subst hrole
        refine ⟨rfl, rfl, ?_⟩
        show Lexer.withoutComment (String.ofList (Lexer.withoutComment line.toList)).toList =
          Lexer.withoutComment line.toList
        rw [String.toList_ofList, withoutComment_idem]

/-! ## Texts that lose their comments -/

/-- Lines of which the annotations have lost their comments. -/
def withoutComments (ls : List String) : List String :=
  (ls.zip (roles ls)).map fun (line, role) =>
    if role = .annotated then withoutComment line else line

/-- A text whose annotations have lost their comments, with a line feed behind each line. -/
def uncommented (text : String) : String :=
  String.ofList ((withoutComments (Text.lines text)).flatMap fun line => line.toList ++ ['\n'])

theorem uncommentedLines_withoutComments (ls : List String) :
    UncommentedLines ls (withoutComments ls) := by
  rw [UncommentedLines, withoutComments, List.forall₂_map_right_iff]
  refine List.forall₂_same.mpr fun entry _ => ?_
  by_cases hrole : entry.2 = .annotated
  · exact .inr ⟨hrole, if_pos hrole⟩
  · exact .inl (if_neg hrole)

theorem splitLines_append_feed_cons {line : List Char}
    (h : ∀ c ∈ line, Text.isLineBreak c = false) (rest : List Char) :
    Text.splitLines (line ++ '\n' :: rest) = line :: Text.splitLines rest := by
  induction line with
  | nil => rfl
  | cons c line ih =>
    have hc := h c List.mem_cons_self
    have hreturn : c ≠ '\r' := by
      rintro rfl
      cases hc
    rw [List.cons_append, Text.splitLines, hc, if_neg Bool.false_ne_true,
      ih fun d hd => h d (List.mem_cons_of_mem _ hd)]
    · rfl
    · rintro others rfl
      exact absurd rfl hreturn

theorem splitLines_flatMap {ls : List (List Char)}
    (h : ∀ line ∈ ls, ∀ c ∈ line, Text.isLineBreak c = false) :
    Text.splitLines (ls.flatMap fun line => line ++ ['\n']) = ls := by
  induction ls with
  | nil => rfl
  | cons line rest ih =>
    rw [List.flatMap_cons, List.append_assoc, List.singleton_append,
      splitLines_append_feed_cons (h line List.mem_cons_self),
      ih fun other hother => h other (List.mem_cons_of_mem _ hother)]

/-- No line of a text gains a line break with the loss of its comment. -/
theorem not_isLineBreak_of_uncommented {text : String} {ls : List String}
    (h : UncommentedLines (Text.lines text) ls) {line : String} (hline : line ∈ ls) {c : Char}
    (hc : c ∈ line.toList) : Text.isLineBreak c = false := by
  have hfree : ∀ {line : String}, line ∈ Text.lines text → ∀ {c}, c ∈ line.toList →
      Text.isLineBreak c = false := by
    intro line hline c hc
    obtain ⟨chars, hchars, rfl⟩ := List.mem_map.mp hline
    rw [String.toList_ofList] at hc
    exact Text.not_isLineBreak_of_mem_splitLines hchars hc
  obtain ⟨⟨old, role⟩, hentry, hold⟩ := exists_left_of_forall₂ h hline
  have hmem := (List.of_mem_zip hentry).1
  rcases hold with rfl | ⟨_, rfl⟩
  · exact hfree hmem hc
  · rw [withoutComment, String.toList_ofList] at hc
    exact hfree hmem ((List.takeWhile_prefix _).subset hc)

/-- The lines of a text without comments are those of the text without their comments. -/
theorem lines_uncommented (text : String) :
    Text.lines (uncommented text) = withoutComments (Text.lines text) := by
  have hid : String.ofList ∘ String.toList = id := funext fun _ => String.ofList_toList
  rw [Text.lines, uncommented, String.toList_ofList,
    ← List.flatMap_map String.toList fun line => line ++ ['\n'], splitLines_flatMap, List.map_map,
    hid, List.map_id]
  intro line hline c hc
  obtain ⟨found, hfound, rfl⟩ := List.mem_map.mp hline
  exact not_isLineBreak_of_uncommented (uncommentedLines_withoutComments _) hfound hc

/-! ## What is read -/

theorem directivesFrom_sameButComment {es es' : List (String × LineRole)}
    (h : List.Forall₂ SameButComment es es') (n : Nat) :
    directivesFrom n es' = directivesFrom n es := by
  induction h generalizing n with
  | nil => rfl
  | @cons e e' _ _ hsame _ ih =>
    obtain ⟨text, role⟩ := e
    obtain ⟨text', role'⟩ := e'
    obtain rfl : role' = role := hsame.role
    cases role' with
    | directive value =>
      obtain rfl : text' = text := hsame.blanked
      rw [directivesFrom, directivesFrom, ih]
    | _ => exact ih (n + 1)

/-- A text whose annotations lose comments is read as before, with its own lines. -/
theorem read_uncommented {text text' : String}
    (h : UncommentedLines (Text.lines text) (Text.lines text')) (file : String) :
    read file text' = ⟨(read file text).outcome.map fun a => { a with lines := Text.lines text' },
      (read file text).warnings⟩ := by
  have hroles : roles (Text.lines text') = roles (Text.lines text) := rolesFrom_uncommented h
  have hdirectives : directivesFrom 1 ((Text.lines text').zip (roles (Text.lines text))) =
      directivesFrom 1 ((Text.lines text).zip (roles (Text.lines text))) :=
    directivesFrom_sameButComment (sameButComment_of_uncommented h) 1
  unfold read
  simp only [hroles, hdirectives]
  split
  · rfl
  · split
    · rfl
    · split <;> rfl

/-! ## Sources that differ in their comments -/

/-- Two sources that are the same but for comments in annotations. -/
structure Annotated.SameButComments (a a' : Annotated) : Prop where
  stage : a'.stage = a.stage
  roles : a'.roles = a.roles
  lines : List.Forall₂ SameButComment (a.lines.zip a.roles) (a'.lines.zip a'.roles)

theorem sameButComments_of_read {file text text' : String} {a : Annotated}
    (h : UncommentedLines (Text.lines text) (Text.lines text'))
    (hread : (read file text).outcome = .ok a) :
    a.SameButComments { a with lines := Text.lines text' } := by
  obtain ⟨hlines, hroles, _⟩ := read_eq_ok hread
  refine ⟨rfl, rfl, ?_⟩
  rw [hroles, hlines]
  exact sameButComment_of_uncommented h

/-- A source without its annotations. -/
def Annotated.bare (a : Annotated) : Annotated :=
  { a with lines := (a.lines.zip a.roles).map blanked }

namespace Annotated.SameButComments

variable {a a' : Annotated} (h : a.SameButComments a')

include h

theorem bare_eq : a'.bare = a.bare := by
  unfold bare
  rw [h.stage, map_eq_of_forall₂ h.lines fun _ _ hsame => hsame.blanked, h.roles]

theorem annotationLines_eq :
    a'.annotationLines.map Lexer.withoutComment = a.annotationLines.map Lexer.withoutComment := by
  rw [annotationLines, annotationLines, List.map_map, List.map_map]
  exact map_eq_of_forall₂ h.lines fun _ _ hsame => hsame.annotation

end Annotated.SameButComments

/-- The tokens of two annotation texts are the same but for comments, and so is the character that
stops the scan. -/
theorem scan_uncommented {file text text' : String} {a : Annotated}
    (h : UncommentedLines (Text.lines text) (Text.lines text'))
    (hread : (read file text).outcome = .ok a) :
    (Lexer.scan ({ a with lines := Text.lines text' } : Annotated).annotationText).withoutComments =
      (Lexer.scan a.annotationText).withoutComments := by
  have hread' : (read file text').outcome = .ok { a with lines := Text.lines text' } := by
    rw [read_uncommented h, hread]
    rfl
  rw [scan_annotationText hread', scan_annotationText hread,
    ← Lexer.scanLines_withoutComment fun _ hline => not_mem_of_mem_annotationLines hread' hline,
    ← Lexer.scanLines_withoutComment fun _ hline => not_mem_of_mem_annotationLines hread hline,
    (sameButComments_of_read h hread).annotationLines_eq]

end Source

/-! ## What is generated -/

namespace Glsl

open Source

/-- Two lines of one role that are the same unless they are annotations. -/
structure SameOutside (entry entry' : String × LineRole) : Prop where
  role : entry'.2 = entry.2
  blanked : Source.blanked entry' = Source.blanked entry

theorem sameOutside_bare (ls : List String) (rs : List LineRole) :
    List.Forall₂ SameOutside (ls.zip rs) (((ls.zip rs).map blanked).zip rs) := by
  induction ls generalizing rs with
  | nil => exact .nil
  | cons line rest ih =>
    cases rs with
    | nil => exact .nil
    | cons role others =>
      refine .cons ⟨rfl, ?_⟩ (ih others)
      cases role <;> rfl

section Outside

variable {es es' : List (String × LineRole)} (h : List.Forall₂ SameOutside es es')

include h

theorem segmentsFrom_sameOutside (chunk : List String) (index : Nat) :
    segmentsFrom chunk index es' = segmentsFrom chunk index es := by
  induction h generalizing chunk index with
  | nil => rfl
  | @cons e e' _ _ hsame _ ih =>
    obtain ⟨text, role⟩ := e
    obtain ⟨text', role'⟩ := e'
    obtain rfl : role' = role := hsame.role
    cases role' with
    | opening => simp only [segmentsFrom, ih]
    | body =>
      obtain rfl : text' = text := hsame.blanked
      exact ih (chunk ++ [text']) index
    | closing | annotated | directive value => exact ih chunk index

theorem statesVersion_sameOutside :
    (es'.any fun (line, role) => isOutside role && statesVersion line) =
      es.any fun (line, role) => isOutside role && statesVersion line := by
  induction h with
  | nil => rfl
  | @cons e e' _ _ hsame _ ih =>
    obtain ⟨text, role⟩ := e
    obtain ⟨text', role'⟩ := e'
    obtain rfl : role' = role := hsame.role
    rw [List.any_cons, List.any_cons, ih]
    cases role' with
    | annotated => rfl
    | opening | closing | directive _ | body =>
      obtain rfl : text' = text := hsame.blanked
      rfl

end Outside

theorem bufferItems_bare (a : Annotated) (m : Model) (o : Options) (emitted : List StructId)
    (bs : List Buffer) : bufferItems a.bare m o emitted bs = bufferItems a m o emitted bs := by
  induction bs generalizing emitted with
  | nil => rfl
  | cons b rest ih =>
    simp only [bufferItems, ih]
    rfl

/-- The annotations themselves do not show in what is generated. -/
theorem generate_bare (a : Annotated) (m : Model) (o : Options) :
    generate a.bare m o = generate a m o := by
  have hsame : List.Forall₂ SameOutside (a.lines.zip a.roles) (a.bare.lines.zip a.bare.roles) :=
    sameOutside_bare a.lines a.roles
  have hsegments : segments a.bare = segments a := segmentsFrom_sameOutside hsame [] 0
  have hversion : hasVersion a.bare = hasVersion a := statesVersion_sameOutside hsame
  have hitems : items a.bare m o = items a m o := by
    simp only [items, bufferItems_bare]
    rfl
  simp only [generate, heading, hsegments, hversion, hitems]

end Glsl

end AnnotatedShader
