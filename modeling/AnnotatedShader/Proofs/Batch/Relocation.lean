import AnnotatedShader.Batch.Compile
import AnnotatedShader.Proofs.Except
import Mathlib.Data.List.Forall2

set_option autoImplicit false

/-!
# Relocation in one pass

Files whose pins clash lose their models one after the other, and the slots are computed again each
time.  The same files lose their models when all files are taken in order once, and each of them is
asked to agree with the pins of those before it that have kept their models.  A file without a model
leaves no trace.

`settle` is that one pass, with the pins of the files that have kept their models so far
(`addModels`).  `relocateFrom_eq` proves that any number of rounds, as long as it is enough for the
batch, gives what `settle` gives, so no theorem above this file counts rounds.  The blame in a clash
is placed by the pins of one model (`place_of_addStage`).

The last section has two batches side by side (`Abreast`): when the models of their files ask for
the same slots, the same files lose their models.
-/

namespace AnnotatedShader.Batch

open Program

/-- The pins of the buffers of models, added to earlier ones. -/
def addModels (pins : List Pin) (ms : List Model) : Except Diagnostic (List Pin) :=
  (ms.map buffersOf).foldlM (addStage ResourceClass.constantBuffer.text) pins

/-- Takes the models from those files whose pins clash with the pins of files before them. -/
def settle : List Pin → List Work → List Work
  | _, [] => []
  | pins, w :: rest =>
    match w.model with
    | none => w :: settle pins rest
    | some m =>
      match addStage ResourceClass.constantBuffer.text pins (buffersOf m) with
      | .ok pins => w :: settle pins rest
      | .error d =>
        { w with model := none, diagnostics := w.diagnostics ++ [d] } :: settle pins rest

/-! ## Clashes -/

theorem addModels_cons (pins : List Pin) (m : Model) (ms : List Model) :
    addModels pins (m :: ms) =
      addStage ResourceClass.constantBuffer.text pins (buffersOf m) >>= (addModels · ms) := by
  rw [addModels, List.map_cons, List.foldlM_cons]
  rfl

theorem place_of_pinClash? {resource file : String} {pins : List Pin} {s : Shared} {slot : Int}
    {d : Diagnostic} (h : pinClash? resource file pins s slot = some d) :
    d.file = file ∧ s.position = d.position := by
  unfold pinClash? at h
  split at h
  · rw [← Option.some.inj h]
    exact ⟨rfl, rfl⟩
  · split at h
    · rw [← Option.some.inj h]
      exact ⟨rfl, rfl⟩
    · simp at h

/-- A clash is reported in the file whose pins are added, at the resource that asks for the pin. -/
theorem place_of_addStage {resource : String} {pins : List Pin} {stage : Program.Stage}
    {d : Diagnostic} (h : addStage resource pins stage = .error d) :
    d.file = stage.file ∧ ∃ s ∈ stage.resources, s.position = d.position := by
  obtain ⟨mid, s, hs, hpin⟩ := exists_of_foldlM_eq_error h
  unfold addPin at hpin
  split at hpin
  · simp at hpin
  · split at hpin
    · rename_i hclash
      rw [← Except.error.inj hpin]
      obtain ⟨hfile, hposition⟩ := place_of_pinClash? hclash
      exact ⟨hfile, s, hs, hposition⟩
    · split at hpin <;> simp at hpin

theorem mem_of_addModels_eq_error {pins : List Pin} {ms : List Model} {d : Diagnostic}
    (h : addModels pins ms = .error d) : ∃ m ∈ ms, m.file = d.file := by
  obtain ⟨mid, stage, hstage, hadd⟩ := exists_of_foldlM_eq_error h
  obtain ⟨m, hm, rfl⟩ := List.mem_map.mp hstage
  exact ⟨m, hm, (place_of_addStage hadd).1.symm⟩

/-- Textures are not pinned, so they never clash. -/
theorem pinsOf_texturesOf (resource : String) (ms : List Model) :
    pinsOf resource (ms.map texturesOf) = .ok [] := by
  have hpins : ∀ (file : String) (ts : List Texture),
      (ts.map fun t => (⟨t.name, none, t.index, t.position⟩ : Shared)).foldlM
        (addPin resource file) [] = .ok [] := by
    intro file ts
    induction ts with
    | nil => rfl
    | cons t rest ih => exact ih
  unfold pinsOf
  induction ms with
  | nil => rfl
  | cons m rest ih =>
    rw [List.map_cons, List.foldlM_cons]
    have hstage : addStage resource [] (texturesOf m) = .ok [] := hpins m.file m.textures
    rw [hstage]
    exact ih

theorem relocate_eq_error_iff {ms : List Model} {d : Diagnostic} :
    Program.relocate ms = .error d ↔ addModels [] ms = .error d := by
  have hbuffers : pinsOf ResourceClass.constantBuffer.text (ms.map buffersOf) = addModels [] ms :=
    rfl
  simp only [Program.relocate, slots, pinsOf_texturesOf, hbuffers]
  cases addModels [] ms <;> simp [bind, Except.bind]

/-! ## One pass instead of many -/

/-- Files have distinct names, and their models know them. -/
structure Named (ws : List Work) : Prop where
  nodup : (ws.map Work.name).Nodup
  file : ∀ w ∈ ws, ∀ m, w.model = some m → m.file = w.name

theorem Named.tail {w : Work} {ws : List Work} (h : Named (w :: ws)) : Named ws :=
  ⟨(List.nodup_cons.mp h.nodup).2, fun x hx => h.file x (List.mem_cons_of_mem _ hx)⟩

theorem map_name_dropModel (d : Diagnostic) (ws : List Work) :
    (dropModel d ws).map Work.name = ws.map Work.name := by
  induction ws with
  | nil => rfl
  | cons w rest ih =>
    rw [dropModel]
    split
    · rfl
    · rw [List.map_cons, List.map_cons, ih]

theorem Named.dropModel {ws : List Work} (h : Named ws) (d : Diagnostic) :
    Named (dropModel d ws) := by
  refine ⟨map_name_dropModel d ws ▸ h.nodup, ?_⟩
  have hfile := h.file
  clear h
  induction ws with
  | nil => exact hfile
  | cons w rest ih =>
    have hrest := fun x hx => hfile x (List.mem_cons_of_mem w hx)
    intro x hx m hm
    rw [Batch.dropModel] at hx
    split at hx
    · rcases List.mem_cons.mp hx with rfl | hx
      · simp at hm
      · exact hrest x hx m hm
    · rcases List.mem_cons.mp hx with rfl | hx
      · exact hfile x List.mem_cons_self m hm
      · exact ih hrest x hx m hm

theorem models_cons_none {w : Work} {ws : List Work} (h : w.model = none) :
    models (w :: ws) = models ws :=
  List.filterMap_cons_none h

theorem models_cons_some {w : Work} {ws : List Work} {m : Model} (h : w.model = some m) :
    models (w :: ws) = m :: models ws :=
  List.filterMap_cons_some h

/-- Files without a clash keep their models. -/
theorem settle_eq_self {pins pins' : List Pin} {ws : List Work}
    (h : addModels pins (models ws) = .ok pins') : settle pins ws = ws := by
  induction ws generalizing pins with
  | nil => rfl
  | cons w rest ih =>
    rw [settle]
    cases hmodel : w.model with
    | none =>
      rw [models_cons_none hmodel] at h
      simp only [ih h]
    | some m =>
      rw [models_cons_some hmodel, addModels_cons, bind_eq_ok_iff] at h
      obtain ⟨mid, hmid, h⟩ := h
      simp only [hmid, ih h]

/-- The first file whose pins clash loses its model in either way. -/
theorem settle_dropModel {pins : List Pin} {ws : List Work} (hws : Named ws) {d : Diagnostic}
    (h : addModels pins (models ws) = .error d) :
    settle pins (dropModel d ws) = settle pins ws ∧
      (models (dropModel d ws)).length < (models ws).length := by
  induction ws generalizing pins with
  | nil => simp [models, addModels, pure, Except.pure] at h
  | cons w rest ih =>
    rw [dropModel]
    cases hmodel : w.model with
    | none =>
      rw [models_cons_none hmodel] at h
      obtain ⟨hsettle, hlength⟩ := ih hws.tail h
      rw [if_neg (by simp)]
      rw [settle, settle, models_cons_none hmodel, models_cons_none hmodel]
      simp only [hmodel, hsettle]
      exact ⟨trivial, hlength⟩
    | some m =>
      have hfile := hws.file w List.mem_cons_self m hmodel
      rw [models_cons_some hmodel, addModels_cons, bind_eq_error_iff] at h
      rcases h with h | ⟨mid, hmid, h⟩
      · have hsame : m.file = d.file := (place_of_addStage h).1.symm
        rw [if_pos (by simp [hsame])]
        rw [settle, settle, models_cons_none rfl, models_cons_some hmodel]
        simp only [hmodel, h]
        exact ⟨trivial, Nat.lt_succ_self _⟩
      · have hother : m.file ≠ d.file := by
          intro heq
          obtain ⟨m', hm', hfile'⟩ := mem_of_addModels_eq_error h
          obtain ⟨w', hw', hmodel'⟩ := List.mem_filterMap.mp hm'
          have hname := hws.tail.file w' hw' m' hmodel'
          refine (List.nodup_cons.mp hws.nodup).1 (List.mem_map.mpr ⟨w', hw', ?_⟩)
          rw [← hname, hfile', ← heq, hfile]
        obtain ⟨hsettle, hlength⟩ := ih hws.tail h
        rw [if_neg (by simpa using hother)]
        rw [settle, settle, models_cons_some hmodel, models_cons_some hmodel]
        simp only [hmodel, hmid, hsettle, List.length_cons]
        exact ⟨trivial, Nat.succ_lt_succ hlength⟩

/-- Many rounds of relocation leave what one pass leaves, with the slots of the models in it. -/
theorem relocateFrom_eq {fuel : Nat} {ws : List Work} (hws : Named ws)
    (hfuel : (models ws).length < fuel) :
    ∃ ms, Program.relocate (models (settle [] ws)) = .ok ms ∧
      relocateFrom fuel ws = replaceModels (settle [] ws) ms := by
  induction fuel generalizing ws with
  | zero => omega
  | succ fuel ih =>
    unfold relocateFrom
    cases hrelocate : Program.relocate (models ws) with
    | ok ms =>
      have hpins : ∃ pins, addModels [] (models ws) = .ok pins := by
        cases hadd : addModels [] (models ws) with
        | ok pins => exact ⟨pins, rfl⟩
        | error d => simp [relocate_eq_error_iff.mpr hadd] at hrelocate
      obtain ⟨pins, hpins⟩ := hpins
      rw [settle_eq_self hpins]
      exact ⟨ms, hrelocate, rfl⟩
    | error d =>
      obtain ⟨hsettle, hlength⟩ := settle_dropModel hws (relocate_eq_error_iff.mp hrelocate)
      rw [← hsettle]
      exact ih (hws.dropModel d) (by omega)

theorem relocate_eq {ws : List Work} (hws : Named ws) :
    ∃ ms, Program.relocate (models (settle [] ws)) = .ok ms ∧
      relocate ws = replaceModels (settle [] ws) ms :=
  relocateFrom_eq hws (Nat.lt_succ_of_le (List.length_filterMap_le _ _))

/-! ## What the pass keeps -/

/-- The pass leaves a file as it is or takes its model, whatever is behind it.  Only a file that has
its model afterwards adds pins. -/
theorem settle_cons (pins : List Pin) (w : Work) :
    ∃ w' pins', (∀ rest, settle pins (w :: rest) = w' :: settle pins' rest) ∧ w'.name = w.name ∧
      (w' = w ∨ w'.model = none) ∧ (w'.model = none → pins' = pins) := by
  cases hmodel : w.model with
  | none =>
    refine ⟨w, pins, ?_, rfl, .inl rfl, fun _ => rfl⟩
    intro rest
    simp only [settle, hmodel]
  | some m =>
    cases hadd : addStage ResourceClass.constantBuffer.text pins (buffersOf m) with
    | ok pins' =>
      refine ⟨w, pins', ?_, rfl, .inl rfl, fun hnone => by simp [hmodel] at hnone⟩
      intro rest
      simp only [settle, hmodel, hadd]
    | error d =>
      refine ⟨{ w with model := none, diagnostics := w.diagnostics ++ [d] }, pins, ?_, rfl,
        .inr rfl, fun _ => rfl⟩
      intro rest
      simp only [settle, hmodel, hadd]

theorem map_name_settle (pins : List Pin) (ws : List Work) :
    (settle pins ws).map Work.name = ws.map Work.name := by
  induction ws generalizing pins with
  | nil => rfl
  | cons w rest ih =>
    obtain ⟨w', pins', heq, hname, _⟩ := settle_cons pins w
    rw [heq, List.map_cons, List.map_cons, hname, ih]

/-- Files with a diagnostic have no model. -/
def Clean (ws : List Work) : Prop := ∀ w ∈ ws, w.diagnostics ≠ [] → w.model = none

theorem settle_clean {pins : List Pin} {ws : List Work} (h : Clean ws) :
    Clean (settle pins ws) := by
  induction ws generalizing pins with
  | nil => exact h
  | cons w rest ih =>
    have hrest : Clean rest := fun x hx => h x (List.mem_cons_of_mem _ hx)
    obtain ⟨w', pins', heq, _, hw', _⟩ := settle_cons pins w
    intro x hx hwrong
    rw [heq] at hx
    rcases List.mem_cons.mp hx with rfl | hx
    · rcases hw' with rfl | hnone
      · exact h x List.mem_cons_self hwrong
      · exact hnone
    · exact ih hrest x hx hwrong

theorem replaceModels_cons_none {w : Work} (h : w.model = none) (rest : List Work)
    (ms : List Model) : replaceModels (w :: rest) ms = w :: replaceModels rest ms := by
  simp only [replaceModels, h]

/-- Which model a file gets, and which are left, does not depend on the files behind it. -/
theorem replaceModels_cons (w : Work) (ms : List Model) :
    ∃ model ms', ∀ rest, replaceModels (w :: rest) ms =
      { w with model := model } :: replaceModels rest ms' := by
  obtain ⟨name, parsed, model, diagnostics⟩ := w
  cases model with
  | none => exact ⟨none, ms, fun _ => rfl⟩
  | some m =>
    cases ms with
    | nil => exact ⟨some m, [], fun _ => rfl⟩
    | cons new ms => exact ⟨some new, ms, fun _ => rfl⟩

/-- New models change neither names nor diagnostics. -/
theorem mem_replaceModels {ws : List Work} {ms : List Model} {w : Work}
    (h : w ∈ replaceModels ws ms) :
    ∃ old ∈ ws, w.name = old.name ∧ w.diagnostics = old.diagnostics := by
  induction ws generalizing ms with
  | nil => simp [replaceModels] at h
  | cons first rest ih =>
    obtain ⟨model, ms', heq⟩ := replaceModels_cons first ms
    rw [heq] at h
    rcases List.mem_cons.mp h with rfl | h
    · exact ⟨first, List.mem_cons_self, rfl, rfl⟩
    · obtain ⟨old, hold, hsame⟩ := ih h
      exact ⟨old, List.mem_cons_of_mem _ hold, hsame⟩

/-! ## Two batches side by side -/

/-- A relation between the work on the files of two batches that relocation keeps: related models
get related slots, or the same file of both batches loses its model. -/
structure Abreast (R : Model → Model → Prop) (D : Diagnostic → Diagnostic → Prop)
    (W : Work → Work → Prop) : Prop where
  model : ∀ w w', W w w' → Option.Rel R w.model w'.model
  file : ∀ m m', R m m' → m'.file = m.file
  diagnostic : ∀ d d', D d d' → d'.file = d.file
  put : ∀ w w' m m', W w w' → R m m' → W { w with model := some m } { w' with model := some m' }
  drop : ∀ w w' d d', W w w' → D d d' →
    W { w with model := none, diagnostics := w.diagnostics ++ [d] }
      { w' with model := none, diagnostics := w'.diagnostics ++ [d'] }
  relocate : ∀ ms ms', List.Forall₂ R ms ms' →
    (∃ rs rs', Program.relocate ms = .ok rs ∧ Program.relocate ms' = .ok rs' ∧
      List.Forall₂ R rs rs') ∨
    ∃ d d', Program.relocate ms = .error d ∧ Program.relocate ms' = .error d' ∧ D d d'

namespace Abreast

variable {R : Model → Model → Prop} {D : Diagnostic → Diagnostic → Prop} {W : Work → Work → Prop}
  (h : Abreast R D W)

include h

theorem models {ws ws' : List Work} (hws : List.Forall₂ W ws ws') :
    List.Forall₂ R (models ws) (models ws') := by
  induction hws with
  | nil => exact .nil
  | @cons w w' rest rest' hw _ ih =>
    have hmodel := h.model w w' hw
    generalize hm : w.model = m at hmodel
    generalize hm' : w'.model = m' at hmodel
    cases hmodel with
    | none => rwa [models_cons_none hm, models_cons_none hm']
    | some hsame =>
      rw [models_cons_some hm, models_cons_some hm']
      exact .cons hsame ih

theorem dropModel {ws ws' : List Work} (hws : List.Forall₂ W ws ws') {d d' : Diagnostic}
    (hd : D d d') : List.Forall₂ W (dropModel d ws) (dropModel d' ws') := by
  induction hws with
  | nil => exact .nil
  | @cons w w' rest rest' hw hrest ih =>
    have hfile : w'.model.map Model.file = w.model.map Model.file := by
      have hmodel := h.model w w' hw
      generalize w.model = m at hmodel
      generalize w'.model = m' at hmodel
      cases hmodel with
      | none => rfl
      | some hm => rw [Option.map_some, Option.map_some, h.file _ _ hm]
    rw [Batch.dropModel, Batch.dropModel, hfile, h.diagnostic d d' hd]
    split
    · exact .cons (h.drop w w' d d' hw hd) hrest
    · exact .cons hw ih

theorem replaceModels {ws ws' : List Work} {ms ms' : List Model} (hws : List.Forall₂ W ws ws')
    (hms : List.Forall₂ R ms ms') :
    List.Forall₂ W (replaceModels ws ms) (replaceModels ws' ms') := by
  induction hws generalizing ms ms' with
  | nil => exact .nil
  | @cons w w' rest rest' hw hrest ih =>
    have hmodel := h.model w w' hw
    generalize hm : w.model = m at hmodel
    generalize hm' : w'.model = m' at hmodel
    cases hmodel with
    | none =>
      rw [replaceModels_cons_none hm, replaceModels_cons_none hm']
      exact .cons hw (ih hms)
    | some hsame =>
      cases hms with
      | nil =>
        simp only [Batch.replaceModels, hm, hm']
        exact .cons hw (ih .nil)
      | cons hnew hothers =>
        simp only [Batch.replaceModels, hm, hm']
        exact .cons (h.put w w' _ _ hw hnew) (ih hothers)

theorem relocateFrom (fuel : Nat) {ws ws' : List Work} (hws : List.Forall₂ W ws ws') :
    List.Forall₂ W (relocateFrom fuel ws) (relocateFrom fuel ws') := by
  induction fuel generalizing ws ws' with
  | zero => exact hws
  | succ fuel ih =>
    unfold Batch.relocateFrom
    rcases h.relocate _ _ (h.models hws) with ⟨rs, rs', hrs, hrs', hsame⟩ | ⟨d, d', hd, hd', hsame⟩
    · rw [hrs, hrs']
      exact h.replaceModels hws hsame
    · rw [hd, hd']
      exact ih (h.dropModel hws hsame)

/-- Files that are related stay so when they get common slots. -/
theorem relocateAll {ws ws' : List Work} (hws : List.Forall₂ W ws ws') :
    List.Forall₂ W (Batch.relocate ws) (Batch.relocate ws') := by
  rw [Batch.relocate, Batch.relocate, hws.length_eq]
  exact h.relocateFrom _ hws

end Abreast

end AnnotatedShader.Batch
