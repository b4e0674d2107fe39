import AnnotatedShader.Proofs.Glsl.Interface
import AnnotatedShader.Proofs.Glsl.Rewriting
import AnnotatedShader.Proofs.Source.Markerless

set_option autoImplicit false

/-!
# Sources without annotations

A source that is all body text and declares nothing is generated as it stands, behind a version if
it states none (`generate_unannotated`): its only segment is the whole text, and where nothing is
replaced a text is rewritten to itself (`rewriteFrom_of_empty`).

Such are the sources of texts that have been generated before.  `versioned` is what becomes of one:
the text itself, or the text behind a line with the version, if the number of the version can be
written.
-/

namespace AnnotatedShader.Glsl

open AnnotatedShader.Text

/-- Where nothing is replaced a text is rewritten to itself. -/
theorem rewriteFrom_of_empty {r : Rewriting} (hmembers : r.members = [])
    (htextures : r.textures = [])
    (fuel : Nat) (front text : List Char) : rewriteFrom r fuel front.getLast? text = text := by
  induction fuel generalizing front text with
  | zero => rfl
  | succ fuel ih =>
    induction front, text using reading_induction with
    | nil front => exact rewriteFrom_nil r _ _
    | char front c rest hc =>
      rw [rewriteFrom_char r fuel hc]
      exact congrArg (c :: ·) (ih [c] rest)
    | name front ident behind hident hfront hbehind =>
      have hcall : sampleCall? r ident behind = none := by
        refine Option.eq_none_iff_forall_ne_some.mpr fun call hcall => ?_
        obtain ⟨hsampler, _⟩ := sampleCall?_eq_some_iff.mp hcall
        obtain ⟨t, _, hlookup⟩ := sampledTexture?_eq_some_iff.mp hsampler
        simp [htextures] at hlookup
      rw [rewriteFrom_name r fuel hident hfront hbehind, hmembers, hcall, ih ident behind]
      exact ite_self _

theorem segmentsFrom_of_body (chunk : List String) (index : Nat) (ls : List String) :
    segmentsFrom chunk index (ls.zip (ls.map fun _ => .body)) = bodySegment (chunk ++ ls) := by
  induction ls generalizing chunk with
  | nil => rw [List.append_nil]; rfl
  | cons line rest ih =>
    have hrest := ih (chunk ++ [line])
    rw [List.append_assoc] at hrest
    exact hrest

theorem hasVersion_of_body (stage : Stage) (ls : List String) :
    hasVersion ⟨stage, ls, ls.map fun _ => .body⟩ = ls.any statesVersion := by
  rw [hasVersion]
  induction ls with
  | nil => rfl
  | cons line rest ih => exact congrArg (statesVersion line || ·) ih

/-- A text behind the version, unless it states one. -/
def versioned (o : Options) (text : String) : Except Failure String :=
  if (lines text).any statesVersion then .ok text
  else do
    let line ← versionLine o
    .ok (line ++ "\n" ++ text)

/-- Body text of a file that declares nothing is generated as it stands, behind a version if it
states none. -/
theorem generate_unannotated {m : Model} (hm : Bare m) {front : String}
    (h : ∀ c ∈ front.toList, isLineBreak c = true → c = '\n') (stage : Stage) (o : Options) :
    generate ⟨stage, lines (front ++ "\n"), (lines (front ++ "\n")).map fun _ => .body⟩ m o =
      versioned o (front ++ "\n") := by
  have hitems : ∀ a, items a m o = .ok [] := fun a => by
    simp only [items, hm.buffers, hm.vertexFormat, hm.textures, hm.outputs, bufferItems,
      Option.toList_none, List.map_nil, List.append_nil, bind, Except.bind, List.mergeSort_nil]
  have hmembers : (rewritingOf m).members = [] := by simp [rewritingOf, hm.buffers]
  have htextures : (rewritingOf m).textures = [] := by simp [rewritingOf, hm.textures]
  have hne : (lines (front ++ "\n")).isEmpty = false := by
    rw [Source.lines_append_feed h]
    simp
  have hsegments : segments ⟨stage, lines (front ++ "\n"),
      (lines (front ++ "\n")).map fun _ => .body⟩ = [.body (lines (front ++ "\n"))] := by
    rw [segments, segmentsFrom_of_body, List.nil_append, bodySegment, hne]
    rfl
  have hrewrite : rewrite (rewritingOf m) front.toList = front.toList :=
    rewriteFrom_of_empty hmembers htextures _ [] _
  rw [generate, hitems, hsegments, heading, hasVersion_of_body, versioned]
  simp only [bind, Except.bind, List.mapM_cons, List.mapM_nil, segmentLines,
    Source.joinLines_lines h, hrewrite, String.ofList_toList, pure, Except.pure]
  cases (lines (front ++ "\n")).any statesVersion with
  | true => rfl
  | false =>
    cases versionLine o with
    | error e => rfl
    | ok line => simp [joinLines, String.append_assoc]

end AnnotatedShader.Glsl
