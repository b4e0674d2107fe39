import AnnotatedShader.Proofs.Except
import AnnotatedShader.Proofs.Lists
import AnnotatedShader.Proofs.Model.Names
import AnnotatedShader.Proofs.Slot.Allocation
import AnnotatedShader.Proofs.Slot.Numbering

set_option autoImplicit false

/-!
# Resources with slots of their own

The resources of a class are addressed by their slots when neither a name nor a slot occurs twice
among them (`Addressed`).  The slots of a file address the resources of its model
(`Model.assignSlots_addressed`), and so do those of a program (`rebind_addressed`).

That the slots of a file are distinct is known from the allocation, for one class after the other,
and for the inputs of the vertex format from their ranges.  In a program they are distinct because a
numbering is injective on the names that it is given.

The last section has the failures of slots.  Every resource has asked for a slot before one is
looked up, so a missing slot is no failure, and what is left are diagnostics.
-/

namespace AnnotatedShader

/-- No two resources have one name or one slot. -/
structure Addressed {α : Type} (name : α → String) (slot : α → Int) (resources : List α) :
    Prop where
  names : (resources.map name).Nodup
  slots : (resources.map slot).Nodup

/-- In each class the resources of a model are addressed. -/
structure Model.Addressed (m : Model) : Prop where
  inputs : ∀ vf, m.vertexFormat = some vf →
    AnnotatedShader.Addressed VertexInput.name VertexInput.location vf.inputs
  buffers : AnnotatedShader.Addressed Buffer.name Buffer.binding m.buffers
  textures : AnnotatedShader.Addressed Texture.name Texture.binding m.textures
  outputs : AnnotatedShader.Addressed Output.name Output.location m.outputs

theorem Model.needSlot_eq_ok_iff {table : Slots} {name : String} {k : Int} :
    needSlot table name = .ok k ↔ table.slot? name = some k := by
  unfold needSlot
  split <;> simp_all

theorem Model.slotsFor_eq_ok_iff {file : String} {cls : ResourceClass}
    {rs : List (SlotRequest Position)} {table : Slots} :
    slotsFor file cls rs = .ok table ↔ SlotRequest.allocate rs = .ok table := by
  unfold slotsFor
  split <;> simp_all [Failure.at_]

section Resources

variable {α : Type} {name : α → String} {slot : α → Int}

/-- Resources are addressed when their slots tell their names apart. -/
theorem Addressed.of_injective {resources : List α} (hnames : (resources.map name).Nodup)
    (hinj : ∀ a ∈ resources, ∀ b ∈ resources, slot a = slot b → name a = name b) :
    Addressed name slot resources := by
  refine ⟨hnames, List.Nodup.map_on ?_ hnames.of_map⟩
  intro a ha b hb hslot
  exact List.inj_on_of_nodup_map hnames ha hb (hinj a ha b hb hslot)

/-- Resources keep their names and get the slots of these. -/
theorem mapM_needSlot (put : α → Int → α) {resources placed : List α} {table : Slots}
    (hname : ∀ a k, name (put a k) = name a) (hslot : ∀ a k, slot (put a k) = k)
    (h : (resources.mapM fun a => do
      let k ← Model.needSlot table (name a)
      .ok (put a k)) = .ok placed) :
    placed.map name = resources.map name ∧ ∀ a ∈ placed, table.slot? (name a) = some (slot a) := by
  have hplaced : List.Forall₂
      (fun a b => name b = name a ∧ table.slot? (name b) = some (slot b)) resources placed := by
    refine (forall₂_of_mapM h).imp fun a b hb => ?_
    simp only [bind_eq_ok_iff, Model.needSlot_eq_ok_iff] at hb
    obtain ⟨k, hk, hb⟩ := hb
    obtain rfl := Except.ok.inj hb
    rw [hname, hslot]
    exact ⟨rfl, hk⟩
  refine ⟨map_eq_of_forall₂ hplaced fun _ _ hb => hb.1, ?_⟩
  intro b hb
  obtain ⟨_, _, _, hslot⟩ := exists_left_of_forall₂ hplaced hb
  exact hslot

/-- The slots that the requests of resources get address them. -/
theorem addressed_of_slotsFor (put : α → Int → α) {request : α → SlotRequest Position}
    {resources placed : List α} {file : String} {cls : ResourceClass} {table : Slots}
    (hname : ∀ a k, name (put a k) = name a) (hslot : ∀ a k, slot (put a k) = k)
    (hrequest : ∀ a, (request a).name = name a) (hnames : (resources.map name).Nodup)
    (hwidths : ∀ a ∈ resources, 0 < (request a).width)
    (htable : Model.slotsFor file cls (resources.map request) = .ok table)
    (h : (resources.mapM fun a => do
      let k ← Model.needSlot table (name a)
      .ok (put a k)) = .ok placed) :
    Addressed name slot placed := by
  have hallocate := Model.slotsFor_eq_ok_iff.mp htable
  obtain ⟨hsame, hplaced⟩ := mapM_needSlot put hname hslot h
  refine .of_injective (hsame ▸ hnames) fun a ha b hb heq => ?_
  refine SlotRequest.allocate_injective ?_ ?_ hallocate (hplaced a ha) (heq ▸ hplaced b hb)
  · simpa [Function.comp_def, hrequest] using hnames
  · simpa using hwidths

end Resources

/-- The slots of a file address the resources of a model, if their names are distinct and each
vertex input takes a location. -/
theorem Model.assignSlots_addressed {m m' : Model} (hnames : m.names.Nodup)
    (hinputs : ∀ vf, m.vertexFormat = some vf → (vf.inputs.map VertexInput.name).Nodup ∧
      ∀ i ∈ vf.inputs, 0 < i.type.locations)
    (h : m.assignSlots = .ok m') : m'.Addressed := by
  obtain ⟨hbufferNames, htextureNames, houtputNames⟩ := nodup_of_names hnames
  simp only [assignSlots, bind_eq_ok_iff] at h
  obtain ⟨vertexFormat, hformat, _, hbuffers, buffers, hplacedBuffers, _, htextures, textures,
    hplacedTextures, _, houtputs, outputs, hplacedOutputs, h⟩ := h
  obtain rfl := Except.ok.inj h
  refine ⟨?_, ?_, ?_, ?_⟩
  · intro vf hvf
    unfold locateFormat? at hformat
    split at hformat
    · obtain rfl := Except.ok.inj hformat
      simp at hvf
    · rename_i old hold
      obtain ⟨located, hlocated, rfl⟩ := map_eq_ok_iff.mp hformat
      obtain rfl := Option.some.inj hvf
      simp only [locateFormat, bind_eq_ok_iff] at hlocated
      obtain ⟨_, hslots, inputs, hplaced, hlocated⟩ := hlocated
      obtain rfl := Except.ok.inj hlocated
      obtain ⟨hdistinct, hwidths⟩ := hinputs old hold
      exact addressed_of_slotsFor (fun i slot => { i with location := slot })
        (fun _ _ => rfl) (fun _ _ => rfl) (fun _ => rfl) hdistinct
        (fun i hi => Int.natCast_pos.mpr (hwidths i hi)) hslots hplaced
  · exact addressed_of_slotsFor (fun b slot => { b with binding := slot })
      (fun _ _ => rfl) (fun _ _ => rfl) (fun _ => rfl) hbufferNames
      (fun _ _ => Int.one_pos) hbuffers hplacedBuffers
  · exact addressed_of_slotsFor (fun t slot => { t with binding := slot })
      (fun _ _ => rfl) (fun _ _ => rfl) (fun _ => rfl) htextureNames
      (fun _ _ => Int.one_pos) htextures hplacedTextures
  · exact addressed_of_slotsFor (fun o slot => { o with location := slot })
      (fun _ _ => rfl) (fun _ _ => rfl) (fun _ => rfl) houtputNames
      (fun _ _ => Int.one_pos) houtputs hplacedOutputs

/-! ## Slots of a program -/

namespace Program

/-- Resources that get the slots of a numbering of their names are addressed by them. -/
theorem addressed_of_numbering {α : Type} {name : α → String} {slot : α → Int}
    (put : α → Int → α) {resources : List α} {Pinned : String → Int → Prop} {met : List String}
    {number : String → Int}
    (hname : ∀ a k, name (put a k) = name a) (hslot : ∀ a k, slot (put a k) = k)
    (hnumber : Numbering Pinned met number) (hmet : ∀ a ∈ resources, name a ∈ met)
    (hnames : (resources.map name).Nodup) :
    Addressed name slot (resources.map fun a => put a (number (name a))) := by
  refine .of_injective (by simpa [Function.comp_def, hname] using hnames) ?_
  simp only [List.mem_map]
  rintro _ ⟨a, ha, rfl⟩ _ ⟨b, hb, rfl⟩ heq
  rw [hslot, hslot] at heq
  rw [hname, hname]
  exact hnumber.injective _ (hmet a ha) _ (hmet b hb) heq

/-- The slots of a program address the resources of each of its files. -/
theorem rebind_addressed {ms : List Model} {buffers textures : Slots}
    (hbuffers : slots ResourceClass.constantBuffer.text (ms.map buffersOf) = .ok buffers)
    (htextures : slots ResourceClass.texture.text (ms.map texturesOf) = .ok textures) {m : Model}
    (hm : m ∈ ms) (h : m.Addressed) : (rebind buffers textures m).Addressed := by
  obtain ⟨bufferSlot, hbufferSlot, hbufferNumbering⟩ := slots_numbering hbuffers
  obtain ⟨textureSlot, htextureSlot, htextureNumbering⟩ := slots_numbering htextures
  rw [flatMap_declared_buffersOf] at hbufferSlot hbufferNumbering
  rw [flatMap_declared_texturesOf] at htextureSlot htextureNumbering
  have hmetBuffers : ∀ b ∈ m.buffers, b.name ∈ buffersMet ms := fun b => name_mem_buffersMet hm
  have hmetTextures : ∀ t ∈ m.textures, t.name ∈ texturesMet ms := fun t => name_mem_texturesMet hm
  rw [rebind_eq_renumber (fun b hb => hbufferSlot _ (hmetBuffers b hb))
    fun t ht => htextureSlot _ (hmetTextures t ht)]
  exact ⟨h.inputs,
    addressed_of_numbering (fun b slot => { b with binding := slot }) (fun _ _ => rfl)
      (fun _ _ => rfl) hbufferNumbering hmetBuffers h.buffers.names,
    addressed_of_numbering (fun t slot => { t with binding := slot }) (fun _ _ => rfl)
      (fun _ _ => rfl) htextureNumbering hmetTextures h.textures.names,
    h.outputs⟩

end Program

end AnnotatedShader

/-!
## Failures of slots

Two pinned resources of a file that claim one slot are a diagnostic.  Otherwise every name that asks
for slots gets one, so none is missing when the slots are given out.
-/

namespace AnnotatedShader

open Failure (Diagnosed diagnosed_at)

/-- Each request gets a slot. -/
theorem SlotRequest.exists_slot?_of_allocate {Place : Type} {rs : List (SlotRequest Place)}
    {slots : Slots} (hnames : (rs.map SlotRequest.name).Nodup) (hwidths : ∀ r ∈ rs, 0 < r.width)
    (h : allocate rs = .ok slots) {r : SlotRequest Place} (hr : r ∈ rs) :
    ∃ slot, slots.slot? r.name = some slot := by
  obtain ⟨heq, hgranted, _⟩ := allocate_eq_ok hnames hwidths h
  obtain ⟨c, hc, hname⟩ := List.mem_map.mp ((granted_perm rs).mem_iff.mpr (List.mem_map_of_mem hr))
  refine ⟨c.start, ?_⟩
  rw [Slots.slot?, lookup_eq_some_iff_of_nodup (by rw [heq, List.map_map]; exact hgranted), heq,
    ← (Prod.mk.inj hname).1]
  exact List.mem_map_of_mem hc

theorem Model.slotsFor_fails (file : String) (cls : ResourceClass)
    (rs : List (SlotRequest Position)) : FailsOnly Diagnosed (slotsFor file cls rs) := by
  unfold slotsFor
  split
  · exact failsOnly_ok _ _
  · exact failsOnly_error (diagnosed_at ..)

/-- Resources get their slots when the requests that were met are theirs. -/
theorem mapM_needSlot_fails {α : Type} {name : α → String} {P : Failure → Prop}
    (put : α → Int → α) {request : α → SlotRequest Position} {resources : List α} {file : String}
    {cls : ResourceClass} {table : Slots} (hrequest : ∀ a, (request a).name = name a)
    (hnames : (resources.map name).Nodup) (hwidths : ∀ a ∈ resources, 0 < (request a).width)
    (htable : Model.slotsFor file cls (resources.map request) = .ok table) :
    FailsOnly P (resources.mapM fun a => do
      let k ← Model.needSlot table (name a)
      .ok (put a k)) := by
  refine failsOnly_mapM fun a ha => ?_
  obtain ⟨slot, hslot⟩ := SlotRequest.exists_slot?_of_allocate
    (by simpa [Function.comp_def, hrequest] using hnames) (by simpa using hwidths)
    (Model.slotsFor_eq_ok_iff.mp htable) (List.mem_map_of_mem ha)
  rw [hrequest] at hslot
  rw [Model.needSlot_eq_ok_iff.mpr hslot]
  exact failsOnly_ok _ _

/-- The resources of a model get their slots, if their names are distinct and each vertex input
takes a location, or a diagnostic tells of a conflict. -/
theorem Model.assignSlots_fails {m : Model} (hnames : m.names.Nodup)
    (hinputs : ∀ vf, m.vertexFormat = some vf → (vf.inputs.map VertexInput.name).Nodup ∧
      ∀ i ∈ vf.inputs, 0 < i.type.locations) : FailsOnly Diagnosed m.assignSlots := by
  obtain ⟨hbufferNames, htextureNames, houtputNames⟩ := nodup_of_names hnames
  have hformat : FailsOnly Diagnosed (locateFormat? m.file m.vertexFormat) := by
    unfold locateFormat?
    split
    · exact failsOnly_ok _ _
    · rename_i vf hvf
      obtain ⟨hdistinct, hwidths⟩ := hinputs vf hvf
      refine FailsOnly.map _ ((slotsFor_fails ..).bind fun table htable => ?_)
      exact (mapM_needSlot_fails (fun i slot => { i with location := slot }) (fun _ => rfl)
        hdistinct
        (fun i hi => Int.natCast_pos.mpr (hwidths i hi)) htable).bind fun _ _ => failsOnly_ok _ _
  refine hformat.bind fun _ _ => (slotsFor_fails ..).bind fun _ hbuffers => ?_
  refine (mapM_needSlot_fails (fun b slot => { b with binding := slot }) (fun _ => rfl)
    hbufferNames (fun _ _ => Int.one_pos) hbuffers).bind fun _ _ => ?_
  refine (slotsFor_fails ..).bind fun _ htextures => ?_
  refine (mapM_needSlot_fails (fun t slot => { t with binding := slot }) (fun _ => rfl)
    htextureNames (fun _ _ => Int.one_pos) htextures).bind fun _ _ => ?_
  refine (slotsFor_fails ..).bind fun _ houtputs => ?_
  exact (mapM_needSlot_fails (fun o slot => { o with location := slot }) (fun _ => rfl)
    houtputNames (fun _ _ => Int.one_pos) houtputs).bind fun _ _ => failsOnly_ok _ _

end AnnotatedShader
