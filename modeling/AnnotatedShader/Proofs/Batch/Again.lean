import AnnotatedShader.Proofs.Batch.Interface
import AnnotatedShader.Proofs.Batch.Recording
import AnnotatedShader.Proofs.Glsl.Markerless
import AnnotatedShader.Proofs.Glsl.Unannotated
import Mathlib

set_option autoImplicit false

/-!
# Compiling what has been compiled

The text that is generated for an accepted file has no markers (`Accepted.markerless`), so it is a
file without annotations: all of it is body text, and it declares nothing.  Such a file is compiled
to its own text, behind a version if it states none (`compile_of_markerless`).  Put together the two
say what becomes of a text that is compiled again under the same options.

The stage is lost on the way: a text without a directive counts for the default stage.  So where
generated GLSL is validated, the new file is accepted only if the validator takes its text for that
stage too, and a validator that knows the stages apart need not.  The file closes with such a
validator, which takes `discard` in pixel stages only, and a file that it takes once and not again.
-/

namespace AnnotatedShader

open AnnotatedShader.Text

namespace Batch

/-! ## Accepted files -/

theorem spelled_of_readAll {seen : List String} {files : List SourceFile} {ws : List Work}
    (h : readAll seen files = .ok ws) : ∀ m ∈ modulesIn ws, m.Spelled :=
  forall_mem_modulesIn (fun _ _ _ => Statement.parse_spelled) h

theorem spelled_of_analyse {ms : List Module} (hms : ∀ m ∈ ms, m.Spelled) {p : ParsedFile}
    (hp : p.module.Spelled) {m : Model} (h : analyse (Namespace.ofModules ms) p = .ok m) :
    m.Spelled := by
  simp only [analyse, bind_eq_ok_iff] at h
  obtain ⟨imports, himports, built, hbuild, hslots⟩ := h
  exact (Model.build_spelled hms hp himports hbuild).of_unslotted_eq
    (Model.assignSlots_unslotted hslots)

/-- The source of an accepted file ends with a line feed, and there is no marker in front. -/
theorem Accepted.markerless {o : Options} (hprofile : ∀ c ∈ o.profile.toList, isBlank c = false)
    {ms : List Module} (hms : ∀ m ∈ ms, m.Spelled) {f : SourceFile} {r : FileResult}
    (h : Accepted o (Namespace.ofModules ms) f r) :
    ∃ front : String, r.source = some (front ++ "\n") ∧ Source.Markerless front.toList := by
  obtain ⟨p, analysed, m, source, hread, hanalyse, hplaced, hgenerate, _, hsource, _⟩ := h
  obtain ⟨a, statements, ha, hstatements, rfl⟩ := readFile_eq_ok hread
  have hmodule : Module.Spelled ⟨f.name, statements⟩ := Statement.parse_spelled hstatements
  have hspelled := spelled_of_analyse hms (p := ⟨a, ⟨f.name, statements⟩⟩) hmodule hanalyse
  have hemittable := emittable_of_analyse hanalyse
  obtain ⟨front, rfl, hfront⟩ := Glsl.generate_markerless ha
    (hemittable.of_unslotted_eq hplaced.unslotted) (hspelled.of_unslotted_eq hplaced.unslotted)
    hprofile hgenerate
  exact ⟨front, hsource, hfront⟩

/-! ## Files without annotations -/

/-- What a text without markers is read as. -/
def unannotated (name text : String) : ParsedFile :=
  ⟨⟨Source.defaultStage, lines text, (lines text).map fun _ => .body⟩, ⟨name, []⟩⟩

/-- The work on a text without markers. -/
def unannotatedWork (name text : String) : Work :=
  ⟨name, some (unannotated name text), some (.empty name Source.defaultStage), []⟩

section Unannotated

variable {front : String} (hfront : Source.Markerless front.toList) (name : String)

include hfront

theorem readFile_of_markerless :
    readFile ⟨name, front ++ "\n"⟩ = .ok (unannotated name (front ++ "\n")) := by
  have hread := Source.read_of_markerless hfront name
  have hgaps := Source.annotationText_of_openings_eq_zero hread
    (List.count_eq_zero.mpr (by simp))
  have hstatements := @Statement.parse_of_gaps name _ fun c hc => by
    rw [hgaps c hc]
    rfl
  simp only [readFile, hread, hstatements]
  rfl

theorem analyseAll_of_markerless (o : Options) :
    analyseAll o [⟨name, front ++ "\n"⟩] = .ok [unannotatedWork name (front ++ "\n")] := by
  have himports : Module.resolveImports ⟨name, []⟩ (Namespace.ofModules [⟨name, []⟩]) = .ok [] :=
    Module.resolveImports_of_uses_eq_nil (by simp) List.mem_cons_self rfl
  have hanalyse : analyse (Namespace.ofModules [⟨name, []⟩]) (unannotated name (front ++ "\n")) =
      .ok (.empty name Source.defaultStage) := by
    rw [analyse, unannotated, himports]
    rfl
  have hread : readAll [] [⟨name, front ++ "\n"⟩] =
      .ok [⟨name, some (unannotated name (front ++ "\n")), none, []⟩] := by
    simp only [readAll, readFile_of_markerless hfront name]
    rfl
  have hwork : analyseWork (Namespace.ofModules [⟨name, []⟩])
      ⟨name, some (unannotated name (front ++ "\n")), none, []⟩ =
        .ok (unannotatedWork name (front ++ "\n")) := by
    simp only [analyseWork, hanalyse]
    rfl
  refine bind_eq_ok_iff.mpr ⟨_, hread,
    bind_eq_ok_iff.mpr ⟨[unannotatedWork name (front ++ "\n")], ?_, ?_⟩⟩
  · rw [List.mapM_cons, List.mapM_nil]
    exact bind_eq_ok_iff.mpr ⟨_, hwork, rfl⟩
  · split <;> rfl

/-- What compiling a text without markers gives. -/
theorem compile_of_markerless {o : Options} {v : Validator} {source : String}
    (hsource : Glsl.versioned o (front ++ "\n") = .ok source)
    (hrun : o.validate = true →
      ∃ answer, v.run o.environment source Source.defaultStage = .ok answer) :
    ∃ r, compile o v [⟨name, front ++ "\n"⟩] = .ok [r] ∧ r.source = some source ∧
      (r.isOk = true ↔ (o.validate = true → v.Takes o.environment source Source.defaultStage)) := by
  have hgenerate : Glsl.generate (unannotated name (front ++ "\n")).source
      (.empty name Source.defaultStage) o = .ok source := by
    rw [← hsource]
    exact Glsl.generate_unannotated ⟨rfl, rfl, rfl, rfl⟩ hfront.breaks Source.defaultStage o
  obtain ⟨ds, validation, hr, hds⟩ := exists_generate hgenerate hrun name []
  refine ⟨_, bind_eq_ok_iff.mpr ⟨_, analyseAll_of_markerless hfront name o,
    mapM_of_forall₂ (.cons hr .nil)⟩, rfl, ?_⟩
  rcases hds with ⟨rfl, htakes⟩ | ⟨⟨d, rfl⟩, hvalidate, hrefuses⟩
  · exact ⟨fun _ => htakes, fun _ => rfl⟩
  · exact ⟨fun hok => by simp [FileResult.isOk, resultWith] at hok,
      fun htakes => absurd (htakes hvalidate) hrefuses⟩

end Unannotated

/-! ## Sources of accepted files -/

/-- The source of an accepted file has no block and no directive.  Under any name it compiles again
with the same options: it stays as it is if it states a version, and gets one in front otherwise, as
long as that can be written.  The new file is accepted, unless generated GLSL is validated and the
validator does not take the new text for the default stage. -/
theorem compile_again {o : Options} (hprofile : ∀ c ∈ o.profile.toList, isBlank c = false)
    {v : Validator} {files : List SourceFile} {rs : List FileResult}
    (h : compile o v files = .ok rs)
    {r : FileResult} (hr : r ∈ rs) (hok : r.isOk = true) (name : String) :
    ∃ source, r.source = some source ∧
      (∃ a, (Source.read name source).outcome = .ok a ∧ a.blocks = [] ∧ a.directiveLines = []) ∧
      ∀ source', Glsl.versioned o source = .ok source' →
        ∃ r', compile o v [⟨name, source⟩] = .ok [r'] ∧ r'.source = some source' ∧
          (r'.isOk = true ↔
            (o.validate = true → v.Takes o.environment source' Source.defaultStage)) := by
  obtain ⟨ws, hws, haccepted⟩ := compile_acceptedIn h
  obtain ⟨f, _, hfr⟩ := exists_left_of_forall₂ haccepted hr
  obtain ⟨front, hsource, hfront⟩ := (hfr hok).markerless hprofile (spelled_of_readAll hws)
  refine ⟨front ++ "\n", hsource, ⟨_, Source.read_of_markerless hfront name,
    (Source.nothing_of_body 1 _).2.2, Source.directiveLines_of_body _ _⟩,
    fun source' hsource' => ?_⟩
  -- The validator has answered for the first text, so it has an answer for the second one.
  exact compile_of_markerless hfront name hsource' fun hvalidate =>
    answers_of_compile h hr hok hvalidate source' Source.defaultStage

/-- A file that states its version, and reads a member of a buffer. -/
def hall : List SourceFile :=
  [⟨"Hall", "#stage pixel\n#version 330\n#sal\nconst struct Lamp \x7b float Glow; \x7d\n#sal\n" ++
    "float g = Lamp_Glow;\n"⟩]

theorem profile_validating : ∀ c ∈ validating.profile.toList, isBlank c = false := fun c hc =>
  Bool.eq_false_iff.mpr fun hblank => absurd (List.any_eq_true.mpr ⟨c, hc, hblank⟩) (by decide)

theorem compile_again_hall : (∀ c ∈ validating.profile.toList, isBlank c = false) ∧
    ∃ rs, compile validating (.program "true") hall = .ok rs ∧ ∃ r ∈ rs, r.isOk = true ∧
      ∃ source, r.source = some source ∧
        (∃ a, (Source.read "Again" source).outcome = .ok a ∧ a.blocks = [] ∧
          a.directiveLines = []) ∧
        ∃ r', compile validating (.program "true") [⟨"Again", source⟩] = .ok [r'] ∧
          r'.source = some source ∧ r'.isOk = true := by
  obtain ⟨rs, hrs, hstates⟩ := exists_eq_ok_of_any
    (show ((compile validating (.program "true") hall).toOption.any fun rs => rs.any fun r =>
      r.isOk && r.source.any fun source => (lines source).any Glsl.statesVersion) = true by
        decide +kernel)
  obtain ⟨r, hr, hstates⟩ := List.any_eq_true.mp hstates
  obtain ⟨hok, hstates⟩ := Bool.and_eq_true_iff.mp hstates
  obtain ⟨source, hsource, hread, hagain⟩ := compile_again profile_validating hrs hr hok "Again"
  rw [hsource, Option.any_some] at hstates
  have hsame : Glsl.versioned validating source = .ok source := by
    rw [Glsl.versioned, if_pos hstates]
  obtain ⟨r', hr', hsource', haccepted⟩ := hagain source hsame
  refine ⟨profile_validating, rs, hrs, r, hr, hok, source, hsource, hread, r', hr', hsource',
    haccepted.mpr fun _ => ?_⟩
  -- The program succeeds whatever it is given.
  exact ⟨⟨true, ""⟩, rfl, rfl⟩

/-- A machine with a validator that takes `discard` in pixel stages only. -/
def fragments : Machine where
  directory := "/tmp"
  run _ _ files :=
    if files.any fun (path, source) =>
        occursIn "discard".toList source.toList && !occursIn ".frag".toList path.toList then
      .ended 2 "'discard' : not supported in this stage" ""
    else .ended 0 "" ""

/-- A body that discards. -/
def cutoutText : String := "#version 450\nvoid main() \x7b discard; \x7d\n"

/-- A file of a pixel stage with this body. -/
def cutout : SourceFile := ⟨"Cutout", "#stage pixel\n" ++ cutoutText⟩

/-- The text of a file that is accepted, and that states its version, need not be accepted: it is
validated for the default stage. -/
theorem cutout_rejected_again : (∀ c ∈ validating.profile.toList, isBlank c = false) ∧
    ∃ r source, compile validating (.default fragments) [cutout] = .ok [r] ∧ r.isOk = true ∧
      r.source = some source ∧ (lines source).any Glsl.statesVersion = true ∧
      ∃ r', compile validating (.default fragments) [⟨"Cutout", source⟩] = .ok [r'] ∧
        r'.isOk = false := by
  obtain ⟨rs, hrs, hfirst⟩ := exists_eq_ok_of_any
    (show ((compile validating (.default fragments) [cutout]).toOption.any fun rs =>
      rs.map (fun r => (r.isOk, r.source)) = [(true, some cutoutText)]) = true by decide +kernel)
  obtain ⟨rs', hrs', hsecond⟩ := exists_eq_ok_of_any
    (show ((compile validating (.default fragments) [⟨"Cutout", cutoutText⟩]).toOption.any fun rs =>
      rs.map FileResult.isOk = [false]) = true by decide +kernel)
  obtain ⟨r, rest, rfl, hr, hrest⟩ := List.map_eq_cons_iff.mp (of_decide_eq_true hfirst)
  obtain rfl := List.map_eq_nil_iff.mp hrest
  obtain ⟨r', rest', rfl, hr', hrest'⟩ := List.map_eq_cons_iff.mp (of_decide_eq_true hsecond)
  obtain rfl := List.map_eq_nil_iff.mp hrest'
  obtain ⟨hok, hsource⟩ := Prod.mk.inj hr
  exact ⟨profile_validating, r, cutoutText, hrs, hok, hsource, by decide +kernel, r', hrs', hr'⟩

end Batch

end AnnotatedShader
