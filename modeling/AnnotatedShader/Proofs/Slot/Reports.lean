import AnnotatedShader.Proofs.Batch.Relocation
import AnnotatedShader.Proofs.Model.Reports

set_option autoImplicit false

/-!
# Places that reports on slots name

A slot that resources of one file contest is reported where one of them stands.  A pin that clashes
with those of other files is reported where the buffer stands that asks for it, unless that buffer
has no place in its file.

The places of requests are those of entities, so all that is asked is that these are spots of the
file (`AtSpot`).  A buffer that is brought in from another file has the place of the statement that
imports it in one respect and none in the other: the clash of a program looks at the file of the
buffer.  `Program.relocate_atSpot` says which of both is reported.
-/

namespace AnnotatedShader

open Failure (Reports)

variable {Spot : String → Position → Prop}

/-- A conflict is reported where one of the requests is made. -/
theorem SlotRequest.exists_place_of_allocate {Place : Type} {rs : List (SlotRequest Place)}
    {c : Conflict Place} (h : allocate rs = .error c) : ∃ r ∈ rs, c.place? = some r.place := by
  unfold allocate at h
  simp only at h
  split at h
  · rename_i slot hcontested
    obtain rfl := Except.error.inj h
    have hslot := (List.mem_filter.mp (List.min?_mem hcontested)).2
    have hlength : 1 < (owners (claims rs) slot).length := of_decide_eq_true hslot
    have hholder := (List.mem_filter.mp (List.getElem_mem hlength)).1
    obtain ⟨r, hr, hclaim⟩ := List.mem_filterMap.mp hholder
    obtain ⟨start, _, heq⟩ := Option.map_eq_some_iff.mp hclaim
    refine ⟨r, hr, ?_⟩
    rw [Conflict.place?, List.getElem?_eq_getElem hlength, ← heq]
    rfl
  · contradiction

namespace Model

theorem slotsFor_atSpot {file : String} {cls : ResourceClass} {rs : List (SlotRequest Position)}
    (h : ∀ r ∈ rs, Spot file r.place) : FailsOnly (AtSpot Spot) (slotsFor file cls rs) := by
  unfold slotsFor
  split
  · exact failsOnly_ok _ _
  · rename_i c hc
    obtain ⟨r, hr, hplace⟩ := SlotRequest.exists_place_of_allocate hc
    rw [hplace]
    exact failsOnly_error (atSpot_at (h r hr) _)

theorem needSlot_silent {Q : Diagnostic → Prop} (slots : Slots) (name : String) :
    FailsOnly (Reports Q) (needSlot slots name) := by
  unfold needSlot
  split
  · exact failsOnly_ok _ _
  · exact failsOnly_error fun _ hd => nomatch hd

/-- Giving out slots reports nothing. -/
theorem mapM_needSlot_silent {Q : Diagnostic → Prop} {α β : Type} {name : α → String}
    {put : α → Int → β} {table : Slots} {resources : List α} :
    FailsOnly (Reports Q) (resources.mapM fun a => do
      let k ← needSlot table (name a)
      .ok (put a k)) :=
  failsOnly_mapM fun _ _ => (needSlot_silent _ _).bind fun _ _ => failsOnly_ok _ _

/-- Whatever is reported of the slots of a file is reported where one of its entities stands. -/
theorem assignSlots_atSpot {m : Model} (h : ∀ site ∈ m.sites, Spot m.file site.position) :
    FailsOnly (AtSpot Spot) m.assignSlots := by
  have hentity : ∀ e ∈ m.entities, Spot m.file e.site.position := fun e he =>
    h _ (List.mem_map_of_mem he)
  have hformat : FailsOnly (AtSpot Spot) (locateFormat? m.file m.vertexFormat) := by
    unfold locateFormat?
    split
    · exact failsOnly_ok _ _
    · rename_i vf hvf
      refine FailsOnly.map _ ((slotsFor_atSpot ?_).bind fun _ _ => ?_)
      · exact List.forall_mem_map.mpr fun _ _ => hentity (.format vf) (by simp [entities, hvf])
      · exact mapM_needSlot_silent.bind fun _ _ => failsOnly_ok _ _
  refine hformat.bind fun _ _ => (slotsFor_atSpot ?_).bind fun _ _ => ?_
  · exact List.forall_mem_map.mpr fun b hb => hentity (.buffer b) (by simp [entities, hb])
  refine mapM_needSlot_silent.bind fun _ _ => (slotsFor_atSpot ?_).bind fun _ _ => ?_
  · exact List.forall_mem_map.mpr fun t ht => hentity (.texture t) (by simp [entities, ht])
  refine mapM_needSlot_silent.bind fun _ _ => (slotsFor_atSpot ?_).bind fun _ _ => ?_
  · exact List.forall_mem_map.mpr fun out hout => hentity (.output out) (by simp [entities, hout])
  exact mapM_needSlot_silent.bind fun _ _ => failsOnly_ok _ _

end Model

/-! ## Slots of a program -/

/-- A clash of pins is reported where a buffer stands, or nowhere if the buffer is imported. -/
theorem Program.relocate_atSpot {ms : List Model}
    (h : ∀ m ∈ ms, ∀ site ∈ m.sites, Spot m.file site.position) {d : Diagnostic}
    (hd : Program.relocate ms = .error d) : d.position = .nowhere ∨ Spot d.file d.position := by
  obtain ⟨_, stage, hstage, hadd⟩ := exists_of_foldlM_eq_error (Batch.relocate_eq_error_iff.mp hd)
  obtain ⟨m, hm, rfl⟩ := List.mem_map.mp hstage
  obtain ⟨hfile, s, hs, hposition⟩ := Batch.place_of_addStage hadd
  obtain ⟨b, hb, rfl⟩ := List.mem_map.mp hs
  have hplace : d.position = bufferPosition m b := hposition.symm
  rw [hfile, hplace]
  unfold bufferPosition
  split
  · refine .inr (h m hm (Entity.buffer b).site (List.mem_map_of_mem ?_))
    simp [Model.entities, hb]
  · exact .inl rfl

end AnnotatedShader
