import AnnotatedShader.Proofs.Model.Reindexed
import AnnotatedShader.Slot.Program

set_option autoImplicit false

/-!
# Slots at other indices

Slots are given out in the order of indices, so models whose entities have moved to other indices in
the same order get the same slots, each for itself and all together.

`SameRequests` relates two lists of requests that are equal but for indices which stand in the same
order.  Allocation sorts by index, and gives related lists the same claims.  A program does not look
at indices at all, so there the tables are the same as soon as names and pins are (`SameStage`).
`Renumbered` models, each with its indices moved, are relocated to renumbered models.
-/

namespace AnnotatedShader

open SlotRequest

/-! ## Requests -/

section Requests

variable {Place α : Type} {r r' : α → SlotRequest Place}

/-- Requests of two runs that are the same but for their indices, which are in the same order. -/
structure SameRequests (r r' : α → SlotRequest Place) : Prop where
  same : ∀ a, { r' a with index := (r a).index } = r a
  index : ∀ a b, (r' a).index ≤ (r' b).index ↔ (r a).index ≤ (r b).index

theorem unpinned_map (s : α → SlotRequest Place) (as : List α) :
    unpinned (as.map s) = ((as.filter fun a => (s a).order.isNone).mergeSort
      fun a b => decide ((s a).index ≤ (s b).index)).map s := by
  rw [unpinned, List.filter_map]
  exact (List.map_mergeSort (f := s) fun _ _ _ _ => rfl).symm

/-- The slots of requests depend on their indices by the order of these only. -/
theorem SameRequests.allocate_map (h : SameRequests r r') (as : List α) :
    allocate (as.map r') = allocate (as.map r) := by
  have hname : ∀ a, (r' a).name = (r a).name := fun a => by rw [← h.same a]
  have horder : ∀ a, (r' a).order = (r a).order := fun a => by rw [← h.same a]
  have hplace : ∀ a, (r' a).place = (r a).place := fun a => by rw [← h.same a]
  have hwidth : ∀ a, (r' a).width = (r a).width := fun a => by rw [← h.same a]
  have hclaims : claims (as.map r') = claims (as.map r) := by
    rw [claims, claims, List.filterMap_map, List.filterMap_map]
    refine List.filterMap_congr fun a _ => ?_
    simp only [Function.comp_apply, claim?, hname, horder, hplace, hwidth]
  have hplaced : ∀ cs next (bs : List α),
      placeUnpinned cs next (bs.map r') = placeUnpinned cs next (bs.map r) := by
    intro cs next bs
    induction bs generalizing next with
    | nil => rfl
    | cons b rest ih =>
      simp only [List.map_cons, placeUnpinned, hname, hwidth, ih]
  simp only [allocate, hclaims, unpinned_map, horder, h.index, hplaced]

theorem SameRequests.slotsFor_map {r r' : α → SlotRequest Position} (h : SameRequests r r')
    (file : String) (cls : ResourceClass) (as : List α) :
    Model.slotsFor file cls (as.map r') = Model.slotsFor file cls (as.map r) := by
  rw [Model.slotsFor, Model.slotsFor, h.allocate_map]

end Requests

namespace Model

variable {f : Nat → Nat} (hf : StrictMono f) (m : Model)

/-! ## Slots of one file -/

theorem locateFormat_reindex (file : String) (vf : VertexFormat) :
    locateFormat file (vf.reindex f) = (locateFormat file vf).map (VertexFormat.reindex f) := by
  simp only [locateFormat, map_bind]
  rfl

theorem locateFormat?_reindex (file : String) (vf : Option VertexFormat) :
    locateFormat? file (vf.map (VertexFormat.reindex f)) =
      (locateFormat? file vf).map (Option.map (VertexFormat.reindex f)) := by
  cases vf with
  | none => rfl
  | some vf =>
    rw [Option.map_some, locateFormat?, locateFormat?, locateFormat_reindex]
    cases locateFormat file vf <;> rfl

include hf

theorem slotsFor_bufferRequests_reindex (file : String) (cls : ResourceClass) :
    slotsFor file cls (m.reindex f).bufferRequests = slotsFor file cls m.bufferRequests := by
  have hsame : SameRequests (fun b : Buffer => (⟨b.name, b.order, b.index, b.position, 1⟩ :
      SlotRequest Position)) (fun b => ⟨b.name, b.order, f b.index, b.position, 1⟩) :=
    ⟨fun _ => rfl, fun _ _ => by simp [hf.le_iff_le]⟩
  rw [bufferRequests, reindex, List.map_map]
  exact hsame.slotsFor_map file cls m.buffers

theorem slotsFor_textureRequests_reindex (file : String) (cls : ResourceClass) :
    slotsFor file cls (m.reindex f).textureRequests = slotsFor file cls m.textureRequests := by
  have hsame : SameRequests (fun t : Texture => (⟨t.name, none, t.index, t.position, 1⟩ :
      SlotRequest Position)) (fun t => ⟨t.name, none, f t.index, t.position, 1⟩) :=
    ⟨fun _ => rfl, fun _ _ => by simp [hf.le_iff_le]⟩
  rw [textureRequests, reindex, List.map_map]
  exact hsame.slotsFor_map file cls m.textures

theorem slotsFor_outputRequests_reindex (file : String) (cls : ResourceClass) :
    slotsFor file cls (m.reindex f).outputRequests = slotsFor file cls m.outputRequests := by
  have hsame : SameRequests (fun o : Output => (⟨o.name, o.order, o.index, o.position, 1⟩ :
      SlotRequest Position)) (fun o => ⟨o.name, o.order, f o.index, o.position, 1⟩) :=
    ⟨fun _ => rfl, fun _ _ => by simp [hf.le_iff_le]⟩
  rw [outputRequests, reindex, List.map_map]
  exact hsame.slotsFor_map file cls m.outputs

/-- A model gets the same slots at other indices. -/
theorem assignSlots_reindex :
    (m.reindex f).assignSlots = m.assignSlots.map (Model.reindex f) := by
  have hbuffers : ∀ slots : Slots, (m.buffers.map (Buffer.reindex f)).mapM (fun b => do
      let slot ← needSlot slots b.name
      .ok { b with binding := slot }) = _ := fun slots =>
    mapM_map (fun b => by rw [map_bind]; rfl) m.buffers
  have htextures : ∀ slots : Slots, (m.textures.map (Texture.reindex f)).mapM (fun t => do
      let slot ← needSlot slots t.name
      .ok { t with binding := slot }) = _ := fun slots =>
    mapM_map (fun t => by rw [map_bind]; rfl) m.textures
  have houtputs : ∀ slots : Slots, (m.outputs.map (Output.reindex f)).mapM (fun o => do
      let slot ← needSlot slots o.name
      .ok { o with location := slot }) = _ := fun slots =>
    mapM_map (fun o => by rw [map_bind]; rfl) m.outputs
  simp only [assignSlots, slotsFor_bufferRequests_reindex hf, slotsFor_textureRequests_reindex hf,
    slotsFor_outputRequests_reindex hf]
  simp only [reindex, locateFormat?_reindex, hbuffers, htextures, houtputs, bind_map, map_bind]
  rfl

/-- The same model up to the indices of its entities, which are in the same order. -/
def Renumbered (m m' : Model) : Prop := ∃ f, StrictMono f ∧ m' = m.reindex f

end Model

/-! ## Slots of a program -/

namespace Program

/-- Two files whose resources are the same up to their indices, which are in the same order. -/
structure SameStage (stage stage' : Stage) : Prop where
  addStage : ∀ resource pins, addStage resource pins stage' = addStage resource pins stage
  declared : stage'.declared = stage.declared

theorem sameStage_map {α : Type} (file : String) (as : List α) {r s : α → Shared}
    (hsame : ∀ a, { s a with index := (r a).index } = r a)
    (hindex : ∀ a b, (s a).index ≤ (s b).index ↔ (r a).index ≤ (r b).index) :
    SameStage ⟨file, as.map r⟩ ⟨file, as.map s⟩ where
  addStage resource pins := by
    rw [Program.addStage, Program.addStage, List.foldlM_map, List.foldlM_map]
    refine congrArg (fun step => List.foldlM step pins as) (funext fun pins => funext fun a => ?_)
    rw [← hsame a]
    rfl
  declared := by
    have hname : ∀ a, (s a).name = (r a).name := fun a => by rw [← hsame a]
    have hsorted : ∀ g : α → Shared, ((as.map g).mergeSort fun a b => decide (a.index ≤ b.index)) =
        (as.mergeSort fun a b => decide ((g a).index ≤ (g b).index)).map g := fun g =>
      (List.map_mergeSort (f := g) fun _ _ _ _ => rfl).symm
    rw [Stage.declared, Stage.declared, hsorted, hsorted, List.map_map, List.map_map]
    simp only [hindex]
    exact List.map_congr_left fun a _ => hname a

theorem pinsOf_sameStage {resource : String} {stages stages' : List Stage}
    (h : List.Forall₂ SameStage stages stages') :
    pinsOf resource stages' = pinsOf resource stages := by
  unfold pinsOf
  generalize [] = pins
  induction h generalizing pins with
  | nil => rfl
  | cons hsame _ ih =>
    rw [List.foldlM_cons, List.foldlM_cons, hsame.addStage]
    exact congrArg _ (funext ih)

theorem slots_sameStage {resource : String} {stages stages' : List Stage}
    (h : List.Forall₂ SameStage stages stages') :
    slots resource stages' = slots resource stages := by
  have hdeclared : stages'.flatMap Stage.declared = stages.flatMap Stage.declared := by
    rw [List.flatMap_def, List.flatMap_def, map_eq_of_forall₂ h fun _ _ hsame => hsame.declared]
  rw [slots, slots, pinsOf_sameStage h, hdeclared]

section Renumbered

variable {f : Nat → Nat} (hf : StrictMono f) (m : Model)

theorem rebind_reindex (buffers textures : Slots) :
    rebind buffers textures (m.reindex f) = (rebind buffers textures m).reindex f := by
  simp only [rebind, Model.reindex, List.map_map]
  rfl

include hf

theorem sameStage_buffersOf : SameStage (buffersOf m) (buffersOf (m.reindex f)) := by
  have hsame := sameStage_map m.file m.buffers
    (r := fun b => ⟨b.name, b.order, b.index, bufferPosition m b⟩)
    (s := fun b => ⟨b.name, b.order, f b.index, bufferPosition m b⟩) (fun _ => rfl)
    fun _ _ => hf.le_iff_le
  rw [buffersOf, buffersOf, Model.reindex, List.map_map]
  exact hsame

theorem sameStage_texturesOf : SameStage (texturesOf m) (texturesOf (m.reindex f)) := by
  have hsame := sameStage_map m.file m.textures
    (r := fun t => ⟨t.name, none, t.index, t.position⟩)
    (s := fun t => ⟨t.name, none, f t.index, t.position⟩) (fun _ => rfl)
    fun _ _ => hf.le_iff_le
  rw [texturesOf, texturesOf, Model.reindex, List.map_map]
  exact hsame

end Renumbered

/-- Models get the same common slots at other indices. -/
theorem relocate_renumbered {ms ms' : List Model} (h : List.Forall₂ Model.Renumbered ms ms') :
    EndTogether (List.Forall₂ Model.Renumbered) (relocate ms) (relocate ms') := by
  have hbuffers : List.Forall₂ SameStage (ms.map buffersOf) (ms'.map buffersOf) := by
    rw [List.forall₂_map_left_iff, List.forall₂_map_right_iff]
    refine h.imp fun m m' hm => ?_
    obtain ⟨f, hf, rfl⟩ := hm
    exact sameStage_buffersOf hf m
  have htextures : List.Forall₂ SameStage (ms.map texturesOf) (ms'.map texturesOf) := by
    rw [List.forall₂_map_left_iff, List.forall₂_map_right_iff]
    refine h.imp fun m m' hm => ?_
    obtain ⟨f, hf, rfl⟩ := hm
    exact sameStage_texturesOf hf m
  rw [relocate, relocate, slots_sameStage hbuffers, slots_sameStage htextures]
  cases slots ResourceClass.constantBuffer.text (ms.map buffersOf) with
  | error d => exact .error d
  | ok buffers =>
    cases slots ResourceClass.texture.text (ms.map texturesOf) with
    | error d => exact .error d
    | ok textures =>
      refine .ok ?_
      rw [List.forall₂_map_left_iff, List.forall₂_map_right_iff]
      refine h.imp fun m m' hm => ?_
      obtain ⟨f, hf, rfl⟩ := hm
      exact ⟨f, hf, rebind_reindex m buffers textures⟩

end Program

end AnnotatedShader
