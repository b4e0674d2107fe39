import AnnotatedShader.Proofs.Lists
import AnnotatedShader.Slot.Program

set_option autoImplicit false

/-!
# Models without slots

Slots are filled into a model twice, by its file and by its program, and nothing else of the model
changes.  What a model is without its slots (`unslotted`) is therefore known from its statements.

Each class of resources is gone through once for it, for a file (`assignSlots_unslotted`) and for a
program (`Program.rebind_unslotted`).  Any property of models that does not look at slots then holds
of the final model of a file if it holds of the one that is built, without a further look at the
assignment of slots.
-/

namespace AnnotatedShader

namespace Model

/-- A model without its slots. -/
def unslotted (m : Model) : Model :=
  { m with
    vertexFormat := m.vertexFormat.map fun vf =>
      { vf with inputs := vf.inputs.map fun i => { i with location := unassigned } }
    buffers := m.buffers.map fun b => { b with binding := unassigned }
    textures := m.textures.map fun t => { t with binding := unassigned }
    outputs := m.outputs.map fun out => { out with location := unassigned } }

/-- Structs have no slots. -/
theorem structs_eq_of_unslotted {m m' : Model} (h : m'.unslotted = m.unslotted) :
    m'.structs = m.structs := by
  have hstructs : m'.unslotted.structs = m.unslotted.structs := by rw [h]
  exact hstructs

/-- What does not depend on the slot of a resource is the same once the slots are given out. -/
theorem map_of_mapM_needSlot {α β : Type} {name : α → String} (put : α → Int → α) (f : α → β)
    (hf : ∀ a k, f (put a k) = f a) {resources placed : List α} {table : Slots}
    (h : (resources.mapM fun a => do
      let k ← needSlot table (name a)
      .ok (put a k)) = .ok placed) : placed.map f = resources.map f := by
  refine map_eq_of_forall₂ (forall₂_of_mapM h) fun a b hb => ?_
  obtain ⟨k, _, hb⟩ := bind_eq_ok_iff.mp hb
  rw [← Except.ok.inj hb, hf]

theorem locateFormat?_unslotted {file : String} {format located : Option VertexFormat}
    (h : locateFormat? file format = .ok located) (m : Model) :
    unslotted { m with vertexFormat := located } = unslotted { m with vertexFormat := format } := by
  unfold locateFormat? at h
  split at h
  · rw [Except.ok.inj h]
  · rename_i vf
    obtain ⟨vf', hlocate, rfl⟩ := map_eq_ok_iff.mp h
    simp only [locateFormat, bind_eq_ok_iff] at hlocate
    obtain ⟨table, _, inputs, hinputs, hlocate⟩ := hlocate
    obtain rfl := Except.ok.inj hlocate
    have hsame := map_of_mapM_needSlot (fun (i : VertexInput) slot => { i with location := slot })
      (fun i => { i with location := unassigned }) (fun _ _ => rfl) hinputs
    simp only [unslotted, Option.map_some, hsame]

/-- The slots of a file are all that it adds to a model. -/
theorem assignSlots_unslotted {m m' : Model} (h : m.assignSlots = .ok m') :
    m'.unslotted = m.unslotted := by
  simp only [assignSlots, bind_eq_ok_iff] at h
  obtain ⟨format, hformat, _, _, buffers, hbuffers, _, _, textures, htextures, _, _, outputs,
    houtputs, h⟩ := h
  obtain rfl := Except.ok.inj h
  have hbuffers := map_of_mapM_needSlot (fun (b : Buffer) slot => { b with binding := slot })
    (fun b => { b with binding := unassigned }) (fun _ _ => rfl) hbuffers
  have htextures := map_of_mapM_needSlot (fun (t : Texture) slot => { t with binding := slot })
    (fun t => { t with binding := unassigned }) (fun _ _ => rfl) htextures
  have houtputs := map_of_mapM_needSlot (fun (out : Output) slot => { out with location := slot })
    (fun out => { out with location := unassigned }) (fun _ _ => rfl) houtputs
  rw [show m.unslotted = unslotted { m with vertexFormat := m.vertexFormat } from rfl,
    ← locateFormat?_unslotted hformat]
  simp only [unslotted, hbuffers, htextures, houtputs]

end Model

/-- The slots of a program are all that it changes in a model. -/
theorem Program.rebind_unslotted (buffers textures : Slots) (m : Model) :
    (rebind buffers textures m).unslotted = m.unslotted := by
  simp only [rebind, Model.unslotted, List.map_map]
  rfl

end AnnotatedShader
