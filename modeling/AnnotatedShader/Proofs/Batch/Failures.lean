import AnnotatedShader.Proofs.Batch.Pass
import AnnotatedShader.Proofs.Glsl.Failures
import AnnotatedShader.Proofs.Model.Agreement
import AnnotatedShader.Proofs.Model.Failures
import AnnotatedShader.Proofs.Namespace.Resolution
import AnnotatedShader.Proofs.Slot.Assignment
import Mathlib

set_option autoImplicit false

/-!
# Failures of the phases

The files of a batch are analysed side by side, so a failure that is not a diagnostic of one file
costs the others their results.  Going through the phases one by one: imports, models and slots fail
with diagnostics, the slots of the program with a clash, and generation with nothing.

There are two exceptions.  An integer may have to be written with more digits than can be written:
an offset in a message or in a text, a size, a slot or the number of the version.  And members may
have to be declared for a version that is not given.  `PhasesFail` has one field for each phase,
with its exceptions in it; `Clashes` names the pins that a clash is about.  The models of the phases
are those of modules of the batch (`ModelOf`), so that each phase is asked only what the one before
it can give.
-/

namespace AnnotatedShader

open Failure (Diagnosed diagnosed_at)
open Model (BuiltIn Exported Misbuilt)

/-! ## Single phases -/

/-- A cycle is reported at an import that leads into it, and an import that names nothing at its own
place. -/
theorem Module.resolveImports_fails {ms : List Module} (hfiles : (ms.map Module.file).Nodup)
    {m : Module} (hm : m ∈ ms) :
    FailsOnly Diagnosed (m.resolveImports (Namespace.ofModules ms)) := by
  have h := resolution_of_mem hfiles hm
  generalize m.resolveImports (Namespace.ofModules ms) = outcome at h
  cases h with
  | cycle | undeclared => exact failsOnly_error (diagnosed_at ..)
  | resolved => exact failsOnly_ok _ _

/-- Where each struct that a file names comes from a file of the batch, the layout of none is
missing. -/
theorem Model.build_fails_exported {ms : List Module} (hfiles : (ms.map Module.file).Nodup)
    {m : Module} (hm : m ∈ ms) {stage : Stage} {imports : List ResolvedImport}
    (himports : m.resolveImports (Namespace.ofModules ms) = .ok imports) :
    FailsOnly (Misbuilt (Namespace.ofModules ms) (Exported (Namespace.ofModules ms)))
      (build m stage (Namespace.ofModules ms) imports) := by
  have hresolved := (Module.resolveImports_eq_ok himports).2
  have honly : ∀ m' ∈ ms, m'.file = m.file → m' = m := fun m' hm' hfile =>
    List.inj_on_of_nodup_map hfiles hm' hm hfile
  have hstructs : CoversStructs (Exported (Namespace.ofModules ms)) fun i =>
      (Namespace.ofModules ms).lookup i.symbol.file i.symbol.name = some i.symbol := by
    intro i hlookup name attr fields hdecl
    exact exported_of_lookup hlookup (by simp [Symbol.struct?, Introduction.symbol, hdecl])
  exact build_fails (coversNames_exported ms) hstructs stage hresolved
    fun hnames i hi => lookup_of_introduces hm honly hnames hresolved hi

/-- A pin of a file clashes with pins of files before it. -/
def Clashes (models : List Model) (d : Diagnostic) : Prop :=
  (∃ clash, d.fault = .slotClash clash) ∧ ∃ m ∈ models, m.file = d.file

theorem Program.relocate_fails (models : List Model) :
    FailsOnly (Clashes models) (Program.relocate models) := by
  refine ⟨fun d hd => ?_⟩
  have hadd := Batch.relocate_eq_error_iff.mp hd
  obtain ⟨_, _, _, hstage⟩ := exists_of_foldlM_eq_error hadd
  exact ⟨Batch.slotClash_of_addStage hstage, Batch.mem_of_addModels_eq_error hadd⟩

/-! ## All phases -/

/-- A model of a file among some modules, with its slots. -/
def ModelOf (ms : List Module) (model : Model) : Prop :=
  ∃ m built, BuiltIn ms m built ∧ built.assignSlots = .ok model

theorem ModelOf.emittable {ms : List Module} {model : Model} (h : ModelOf ms model) :
    model.Emittable := by
  obtain ⟨m, built, hbuilt, hslots⟩ := h
  obtain ⟨stage, imports, _, hbuild⟩ := hbuilt.built
  exact (Model.build_emittable hbuild).of_unslotted_eq (Model.assignSlots_unslotted hslots)

theorem emittable_of_relocate {models relocated : List Model}
    (hmodels : ∀ model ∈ models, model.Emittable) (h : Program.relocate models = .ok relocated) :
    ∀ model ∈ relocated, model.Emittable := by
  simp only [Program.relocate, bind_eq_ok_iff] at h
  obtain ⟨buffers, _, textures, _, h⟩ := h
  obtain rfl := Except.ok.inj h
  refine List.forall_mem_map.mpr fun model hmodel => ?_
  exact (hmodels model hmodel).of_unslotted_eq (Program.rebind_unslotted buffers textures model)

/-- What the phases of a batch fail with. -/
structure PhasesFail (ms : List Module) : Prop where
  imports : ∀ m ∈ ms, FailsOnly Diagnosed (m.resolveImports (Namespace.ofModules ms))
  models : ∀ m ∈ ms, ∀ stage imports, m.resolveImports (Namespace.ofModules ms) = .ok imports →
    FailsOnly (Misbuilt (Namespace.ofModules ms) (Exported (Namespace.ofModules ms)))
      (Model.build m stage (Namespace.ofModules ms) imports)
  slots : ∀ m built, BuiltIn ms m built → FailsOnly Diagnosed built.assignSlots
  relocation : ∀ models, (∀ model ∈ models, ModelOf ms model) →
    FailsOnly (Clashes models) (Program.relocate models)
  generation : ∀ models relocated, (∀ model ∈ models, ModelOf ms model) →
    Program.relocate models = .ok relocated → ∀ model ∈ relocated, ∀ source o,
      FailsOnly (Glsl.Ungenerated source o model) (Glsl.generate source model o)

/-- In a batch of modules with distinct names, imports, models and slots fail with nothing but
diagnostics, and the slots of the program with nothing but a clash; the text of each model is then
generated.  A model can fail otherwise only where a packed member of a struct of the batch is at an
offset that is too long to be shown, and a text only where an integer that it states, that of the
version among them, is too long or where there is no version to declare members for. -/
theorem phases_fail {ms : List Module} (hfiles : (ms.map Module.file).Nodup) : PhasesFail ms where
  imports m hm := Module.resolveImports_fails hfiles hm
  models m hm stage imports himports := Model.build_fails_exported hfiles hm himports
  slots m built hbuilt := by
    obtain ⟨stage, imports, _, hbuild⟩ := hbuilt.built
    exact Model.assignSlots_fails (Model.build_names hbuild) (Model.build_inputs hbuild)
  relocation models _ := Program.relocate_fails models
  generation models relocated hmodels hrelocate model hmodel source o :=
    Glsl.generate_fails source (emittable_of_relocate (fun m hm => (hmodels m hm).emittable)
      hrelocate model hmodel)

open Model (lampBatch lampModule) in
/-- A batch with an import gets through all phases. -/
theorem phases_fail_lamps : (lampBatch.map Module.file).Nodup ∧ PhasesFail lampBatch ∧
    ∃ model, ModelOf lampBatch model ∧ ∃ relocated, Program.relocate [model] = .ok relocated := by
  have hfiles : (lampBatch.map Module.file).Nodup := by decide
  have himports : lampModule.resolveImports (Namespace.ofModules lampBatch) = .ok [] := by cbv
  have hrun : (Model.build lampModule .pixel (Namespace.ofModules lampBatch) [] >>= fun built =>
      built.assignSlots).toOption.any (fun model => (Program.relocate [model]).toOption.isSome) =
        true := by cbv
  obtain ⟨model, hmodel, hrelocate⟩ := exists_eq_ok_of_any hrun
  obtain ⟨built, hbuild, hslots⟩ := bind_eq_ok_iff.mp hmodel
  refine ⟨hfiles, phases_fail hfiles, model, ⟨lampModule, built, ⟨by decide, by decide, ?_⟩,
    hslots⟩, ?_⟩
  · exact ⟨.pixel, [], himports, hbuild⟩
  · cases hprogram : Program.relocate [model] with
    | error d => simp [hprogram, Except.toOption] at hrelocate
    | ok relocated => exact ⟨relocated, rfl⟩

end AnnotatedShader
