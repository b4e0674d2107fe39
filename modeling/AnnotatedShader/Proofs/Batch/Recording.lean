import AnnotatedShader.Proofs.Batch.Acceptance
import AnnotatedShader.Proofs.Batch.Failures
import AnnotatedShader.Proofs.Statement.Failures
import Mathlib

set_option autoImplicit false

/-!
# What a batch records

Every file has one result, under its own name: a source, or one diagnostic in its place.  The work
on a file is followed through reading, analysis, relocation and generation; whatever a step fails
with is a diagnostic, or one of the few failures that end the whole batch.

`Escapes` lists those: a numeral that is too long to be read (`Overlong`), an integer of a text that
is too long to be written, an offset in a message that is, and a version that is not given where
members are to be declared.  Each is told with the file and the model that it comes from.
`HasBeenRead` and `Settled` say what the work on a file is after reading and after analysis, and
relocation keeps the latter (`relocateFrom_settled`).  `Recorded` is what a result then says of its
file.

The validator is left out of this: without validation nothing is asked of it.
-/

namespace AnnotatedShader.Batch

open Failure (Diagnosed diagnosed_at)
open Model (Exported FarMember Misbuilt)
open Statement (Misread ReadableText)

/-- A diagnostic is kept apart, so it does not end the batch. -/
theorem spare_fails {α : Type} {P : Failure → Prop} {x : Except Failure α}
    (h : FailsOnly (fun e => e.Diagnosed ∨ P e) x) : FailsOnly P (spare x) := by
  unfold spare
  split
  · exact failsOnly_ok _ _
  · exact failsOnly_ok _ _
  · rename_i e hother
    refine failsOnly_error ((h.of_eq e rfl).resolve_left ?_)
    rintro ⟨d, rfl⟩
    exact hother d rfl

/-! ## Reading -/

/-- The annotations of a file hold a number with too many digits. -/
def Overlong (f : SourceFile) : Prop :=
  ∃ a, (Source.read f.name f.text).outcome = .ok a ∧ ¬ ReadableText a.annotationText

theorem readFile_fails (f : SourceFile) : FailsOnly (Misread (Overlong f)) (readFile f) := by
  unfold readFile
  split
  · exact failsOnly_error (.inl ⟨_, rfl⟩)
  · rename_i a hread
    refine ((Statement.parse_fails f.name a.annotationText).imp fun e he => ?_).bind
      fun _ _ => failsOnly_ok _ _
    exact he.imp_right (And.imp_right fun hlong => ⟨a, hread, hlong⟩)

theorem readAll_fails {seen : List String} {files : List SourceFile} :
    FailsOnly (fun e => e = .numeralUnread ∧ ∃ f ∈ firstOfName seen files, Overlong f)
      (readAll seen files) := by
  induction files generalizing seen with
  | nil => exact failsOnly_ok _ _
  | cons f rest ih =>
    unfold readAll firstOfName
    split
    · exact ih.bind fun _ _ => failsOnly_ok _ _
    · refine ((spare_fails (readFile_fails f)).imp ?_).bind fun outcome _ => (ih.imp ?_).bind ?_
      · exact fun e he => ⟨he.1, f, List.mem_cons_self, he.2⟩
      · rintro e ⟨he, g, hg, hlong⟩
        exact ⟨he, g, List.mem_cons_of_mem _ hg, hlong⟩
      · intro others _
        cases outcome <;> exact failsOnly_ok _ _

/-- What reading leaves of a file: what it has been read as, or one diagnostic. -/
inductive HasBeenRead (f : SourceFile) : Work → Prop
  | parsed (p : ParsedFile) (hread : readFile f = .ok p) : HasBeenRead f ⟨f.name, some p, none, []⟩
  | rejected (d : Diagnostic) : HasBeenRead f (rejected f.name d)

/-- Each file is read, and of those of one name at most one has a module. -/
theorem readAll_spec {seen : List String} {files : List SourceFile} {ws : List Work}
    (h : readAll seen files = .ok ws) : List.Forall₂ HasBeenRead files ws ∧
      ((modulesIn ws).map Module.file).Nodup ∧ ∀ m ∈ modulesIn ws, m.file ∉ seen := by
  induction files generalizing seen ws with
  | nil =>
    obtain rfl := Except.ok.inj h
    exact ⟨.nil, .nil, by simp [modulesIn]⟩
  | cons f rest ih =>
    unfold readAll at h
    split at h
    · obtain ⟨others, hothers, h⟩ := bind_eq_ok_iff.mp h
      obtain rfl := Except.ok.inj h
      obtain ⟨hread, hmodules⟩ := ih hothers
      exact ⟨.cons (.rejected _) hread, hmodules⟩
    · rename_i hfresh
      simp only [bind_eq_ok_iff] at h
      obtain ⟨outcome, houtcome, others, hothers, h⟩ := h
      obtain ⟨hread, hdistinct, hunseen⟩ := ih hothers
      have hlater : ∀ m ∈ modulesIn others, m.file ∉ seen := fun m hm hmem =>
        hunseen m hm (List.mem_cons_of_mem _ hmem)
      cases outcome with
      | error d =>
        obtain rfl := Except.ok.inj h
        exact ⟨.cons (.rejected d) hread, hdistinct, hlater⟩
      | ok p =>
        obtain rfl := Except.ok.inj h
        have hp := spare_eq_ok_ok_iff.mp houtcome
        have hfile := readFile_module_file hp
        refine ⟨.cons (.parsed p hp) hread, List.nodup_cons.mpr ⟨?_, hdistinct⟩, ?_⟩
        · intro hmem
          obtain ⟨m, hm, heq⟩ := List.mem_map.mp hmem
          exact hunseen m hm (by rw [heq, hfile]; exact List.mem_cons_self)
        · refine List.forall_mem_cons.mpr ⟨?_, hlater⟩
          rw [hfile]
          simpa using hfresh

/-- What holds of the statements of any text holds of all modules. -/
theorem forall_mem_modulesIn {P : Module → Prop}
    (hparse : ∀ file text ss, Statement.parse file text = .ok ss → P ⟨file, ss⟩)
    {seen : List String} {files : List SourceFile} {ws : List Work}
    (h : readAll seen files = .ok ws) : ∀ m ∈ modulesIn ws, P m := by
  intro m hm
  obtain ⟨w, hw, hparsed⟩ := List.mem_filterMap.mp hm
  obtain ⟨f, _, hread⟩ := exists_left_of_forall₂ (readAll_spec h).1 hw
  cases hread with
  | rejected d => contradiction
  | parsed p hp =>
    obtain ⟨a, statements, _, hstatements, rfl⟩ := readFile_eq_ok hp
    obtain rfl := Option.some.inj hparsed
    exact hparse _ _ _ hstatements

/-! ## Analysis -/

section Analysis

variable {ms : List Module} (hfiles : (ms.map Module.file).Nodup) {p : ParsedFile}
  (hp : p.module ∈ ms)

include hfiles hp

theorem analyse_fails :
    FailsOnly (Misbuilt (Namespace.ofModules ms) (Exported (Namespace.ofModules ms)))
    (analyse (Namespace.ofModules ms) p) := by
  refine ((Module.resolveImports_fails hfiles hp).imp fun _ he => .inl he).bind
    fun imports himports => ?_
  refine (Model.build_fails_exported hfiles hp himports).bind fun m hm => ?_
  exact (Model.assignSlots_fails (Model.build_names hm) (Model.build_inputs hm)).imp
    fun _ he => .inl he

omit hfiles hp in
theorem emittable_of_analyse {ns : Namespace} {m : Model} (h : analyse ns p = .ok m) :
    m.Emittable := by
  simp only [analyse, bind_eq_ok_iff] at h
  obtain ⟨imports, _, built, hbuild, hslots⟩ := h
  exact (Model.build_emittable hbuild).of_unslotted_eq (Model.assignSlots_unslotted hslots)

end Analysis

/-- From its analysis on, the work on a file has a model that can be emitted, or one diagnostic. -/
inductive Settled (f : SourceFile) : Work → Prop
  | whole (p : ParsedFile) (m : Model) (hm : m.Emittable) : Settled f ⟨f.name, some p, some m, []⟩
  | faulty (parsed : Option ParsedFile) (d : Diagnostic) : Settled f ⟨f.name, parsed, none, [d]⟩

theorem analyseWork_fails {ms : List Module} (hfiles : (ms.map Module.file).Nodup) {w : Work}
    (hw : ∀ p, w.parsed = some p → p.module ∈ ms) :
    FailsOnly (fun e => e = .numeralUnwritten ∧
        FarMember (Namespace.ofModules ms) (Exported (Namespace.ofModules ms)))
      (analyseWork (Namespace.ofModules ms) w) := by
  unfold analyseWork
  split
  · exact failsOnly_ok _ _
  · rename_i p hparsed
    refine (spare_fails (analyse_fails hfiles (hw p hparsed))).bind fun outcome _ => ?_
    cases outcome <;> exact failsOnly_ok _ _

theorem analyseWork_settled {ns : Namespace} {f : SourceFile} {w a : Work} (hw : HasBeenRead f w)
    (h : analyseWork ns w = .ok a) : Settled f a := by
  cases hw with
  | rejected d =>
    obtain rfl := Except.ok.inj h
    exact .faulty none d
  | parsed p hread =>
    obtain ⟨outcome, houtcome, h⟩ := bind_eq_ok_iff.mp h
    cases outcome with
    | error d =>
      obtain rfl := Except.ok.inj h
      exact .faulty (some p) d
    | ok m =>
      obtain rfl := Except.ok.inj h
      exact .whole p m (emittable_of_analyse (spare_eq_ok_ok_iff.mp houtcome))

/-! ## Relocation -/

/-- A file that loses its model gets the diagnostic in its place. -/
theorem dropModel_settled {files : List SourceFile} {ws : List Work} (d : Diagnostic)
    (h : List.Forall₂ Settled files ws) : List.Forall₂ Settled files (dropModel d ws) := by
  induction h with
  | nil => exact .nil
  | cons hfirst hrest ih =>
    rw [dropModel]
    cases hfirst with
    | faulty parsed d' => exact .cons (.faulty parsed d') ih
    | whole p m hm =>
      split
      · exact .cons (.faulty (some p) d) hrest
      · exact .cons (.whole p m hm) ih

theorem relocateFrom_settled {fuel : Nat} {files : List SourceFile} {ws : List Work}
    (h : List.Forall₂ Settled files ws) : List.Forall₂ Settled files (relocateFrom fuel ws) := by
  induction fuel generalizing ws with
  | zero => exact h
  | succ fuel ih =>
    unfold relocateFrom
    split
    · rename_i ms hms
      obtain ⟨buffers, textures, _, rfl⟩ := exists_tables hms
      rw [replaceModels_map, List.forall₂_map_right_iff]
      refine h.imp fun f w hw => ?_
      cases hw with
      | faulty parsed d => exact .faulty parsed d
      | whole p m hm =>
        exact .whole p _ (hm.of_unslotted_eq (Program.rebind_unslotted buffers textures m))
    · exact ih (dropModel_settled _ h)

/-! ## All of it -/

/-- Why a batch ends without results: a number in the annotations of a file that is read, an offset
that a diagnostic would show, or an integer that the text of a file would state, has too many
digits, or there is no version to declare members for. -/
inductive Escapes (o : Options) (files : List SourceFile) : Failure → Prop
  | unread (f : SourceFile) (hf : f ∈ firstOfName [] files) (hlong : Overlong f) :
    Escapes o files .numeralUnread
  | unshown (ws : List Work) (hread : readAll [] files = .ok ws)
    (hfar : FarMember (namespaceOf ws) (Exported (namespaceOf ws))) :
    Escapes o files .numeralUnwritten
  | unwritten (ws : List Work) (w : Work) (p : ParsedFile) (m : Model) (n : Int)
    (hanalysed : analyseAll o files = .ok ws) (hw : w ∈ ws) (hparsed : w.parsed = some p)
    (hmodel : w.model = some m) (hstates : Glsl.States p.source o m n)
    (hlong : Number.isWritable n = false) : Escapes o files .numeralUnwritten
  | unversioned (hversion : o.glslVersion = none) : Escapes o files .versionMissing

/-- The result of a file: under its name a source, or one diagnostic in its place. -/
structure Recorded (f : SourceFile) (r : FileResult) : Prop where
  name : r.name = f.name
  outcome : (∃ source, r.source = some source ∧ r.diagnostics = []) ∨
    r.source = none ∧ r.reflection = none ∧ ∃ d, r.diagnostics = [d]

theorem analyseAll_fails {o : Options} {files : List SourceFile} :
    FailsOnly (Escapes o files) (analyseAll o files) := by
  refine (readAll_fails.imp fun e he => ?_).bind fun ws hws => ?_
  · obtain ⟨rfl, f, hf, hlong⟩ := he
    exact .unread f hf hlong
  · obtain ⟨_, hfiles, _⟩ := readAll_spec hws
    refine FailsOnly.bind ?_ fun _ _ => failsOnly_ok _ _
    refine failsOnly_mapM fun w hw => (analyseWork_fails hfiles fun p hp => ?_).imp fun e he => ?_
    · exact List.mem_filterMap.mpr ⟨w, hw, by rw [hp]; rfl⟩
    · obtain ⟨rfl, hfar⟩ := he
      exact .unshown ws hws hfar

theorem analyseAll_settled {o : Options} {files : List SourceFile} {ws : List Work}
    (h : analyseAll o files = .ok ws) : List.Forall₂ Settled files ws := by
  simp only [analyseAll, bind_eq_ok_iff] at h
  obtain ⟨read, hread, analysed, hanalysed, h⟩ := h
  have hsettled : List.Forall₂ Settled files analysed :=
    forall₂_trans (readAll_spec hread).1 (forall₂_of_mapM hanalysed) fun _ _ _ =>
      analyseWork_settled
  obtain rfl := Except.ok.inj h
  split
  · exact relocateFrom_settled hsettled
  · exact hsettled

section Generation

variable {o : Options} (hvalidate : o.validate = false) {v : Validator} {f : SourceFile} {w : Work}
  (hw : Settled f w)

include hvalidate hw

theorem generate_fails : FailsOnly (fun e => ∃ p m, w.parsed = some p ∧ w.model = some m ∧
    Glsl.Ungenerated p.source o m e) (generate o v w) := by
  cases hw with
  | faulty parsed d => cases parsed <;> exact failsOnly_ok _ _
  | whole p m hm =>
    refine ((Glsl.generate_fails p.source hm).imp fun e he => ⟨p, m, rfl, rfl, he⟩).bind
      fun source _ => ?_
    simp only [hvalidate]
    exact failsOnly_ok _ _

theorem generate_recorded {r : FileResult} (h : generate o v w = .ok r) : Recorded f r := by
  have hgenerated := generate_generated h
  cases hw with
  | faulty parsed d =>
    cases hgenerated with
    | failed => exact ⟨rfl, .inr ⟨rfl, rfl, d, rfl⟩⟩
    | done _ m _ _ _ _ hmodel => contradiction
  | whole p m hm =>
    cases hgenerated with
    | failed hnone => simp at hnone
    | done _ _ source more _ _ _ _ hmore =>
      exact ⟨rfl, .inl ⟨source, rfl, by simp [hmore hvalidate]⟩⟩

end Generation

/-- Without validation every batch, whatever the texts and the names of its files, has one result
for each file in their order, unless a number is too long to be read or written or there is no
version to declare members for.  The result is under the name of the file, and it has a source, or
else the one diagnostic that tells why not. -/
theorem compile_recorded {o : Options} (hvalidate : o.validate = false) (v : Validator)
    (files : List SourceFile) : FailsOnly (Escapes o files) (compile o v files) ∧
      ∀ rs, compile o v files = .ok rs → List.Forall₂ Recorded files rs := by
  constructor
  · refine analyseAll_fails.bind fun ws hws => failsOnly_mapM fun w hw => ?_
    obtain ⟨f, _, hsettled⟩ := exists_left_of_forall₂ (analyseAll_settled hws) hw
    refine (generate_fails hvalidate hsettled).imp fun e he => ?_
    obtain ⟨p, m, hp, hm, ⟨rfl, n, hstates, hlong⟩ | ⟨rfl, hversion⟩⟩ := he
    · exact .unwritten ws w p m n hws hw hp hm hstates hlong
    · exact .unversioned hversion
  · intro rs h
    obtain ⟨ws, hws, hgenerate⟩ := bind_eq_ok_iff.mp h
    exact forall₂_trans (analyseAll_settled hws) (forall₂_of_mapM hgenerate)
      fun _ _ _ hw hr => generate_recorded hvalidate hw hr

/-- A file, another one of its name, and one with an annotation that is no statement. -/
def skies : List SourceFile :=
  [⟨"Sky", "#stage pixel\nvoid main() {}\n"⟩, ⟨"Sky", "#stage pixel\n"⟩,
    ⟨"Fog", "#sal\nconst\n#sal\n"⟩]

theorem compile_recorded_skies : Options.default.validate = false ∧
    ∃ rs, compile .default (.script default) skies = .ok rs ∧ List.Forall₂ Recorded skies rs ∧
      rs.map FileResult.isOk = [true, false, false] := by
  obtain ⟨rs, hrs, hoks⟩ := exists_eq_ok_of_any
    (show ((compile .default (.script default) skies).toOption.any fun rs =>
      rs.map FileResult.isOk = [true, false, false]) = true by
        decide +kernel)
  exact ⟨rfl, rs, hrs, (compile_recorded rfl (.script default) skies).2 rs hrs,
    of_decide_eq_true hoks⟩

end AnnotatedShader.Batch
