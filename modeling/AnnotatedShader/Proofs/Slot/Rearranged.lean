import AnnotatedShader.Proofs.EndAlike
import AnnotatedShader.Proofs.Model.Unsited
import AnnotatedShader.Proofs.Slot.Unslotted
import AnnotatedShader.Slot.Program

set_option autoImplicit false

/-!
# Slots of rearranged models

Slots are given out in the order of statements, class by class.  A model whose entities stand in
that order gets the same slots as without the sites of the entities, so two models that differ in
these sites alone get the same slots, each for itself and in a program.

For a file, requests are compared without their places, and with any order numbers that agree with
the order of the list (`Displaces`).  A clash is reported at the place of a request, so only whether
there is one is compared.  In a program models ask for slots in the order of their lists, and two
programs that ask alike get the same table (`AsksAlike`, `slots_alike`); `Kin` relates the models of
a file in both batches, and relocation keeps it (`relocate_kin`).
-/

namespace AnnotatedShader

open SlotRequest

/-! ## Requests without places -/

/-- A claim that is made nowhere. -/
def Claim.unplaced (c : Claim Position) : Claim Position := { c with place := .nowhere }

/-- A way to change requests that takes their places and keeps what they ask for. -/
structure Displaces (g : SlotRequest Position → SlotRequest Position) : Prop where
  name : ∀ r, (g r).name = r.name
  order : ∀ r, (g r).order = r.order
  width : ∀ r, (g r).width = r.width
  place : ∀ r, (g r).place = .nowhere

section Displaced

variable {cs : List (Claim Position)} {g : SlotRequest Position → SlotRequest Position}

theorem isFree_unplaced (width start : Int) :
    isFree (cs.map Claim.unplaced) width start = isFree cs width start := by
  rw [isFree, isFree, List.any_map]
  rfl

theorem firstFree_unplaced (width start : Int) :
    firstFree (cs.map Claim.unplaced) width start = firstFree cs width start := by
  have hsearch : ∀ fuel start, searchFree (cs.map Claim.unplaced) width fuel start =
      searchFree cs width fuel start := by
    intro fuel
    induction fuel with
    | zero => exact fun _ => rfl
    | succ fuel ih =>
      intro start
      rw [searchFree, searchFree, isFree_unplaced, ih]
  have hending : endOfClaims (cs.map Claim.unplaced) = endOfClaims cs := by
    rw [endOfClaims, endOfClaims, List.map_map]
    rfl
  rw [firstFree, firstFree, hsearch, hending]

theorem contested?_unplaced : contested? (cs.map Claim.unplaced) = contested? cs := by
  have howners :
      ∀ slot, (owners (cs.map Claim.unplaced) slot).length = (owners cs slot).length := by
    intro slot
    rw [owners, List.filter_map, List.length_map]
    rfl
  have hstarts : (cs.map Claim.unplaced).map Claim.start = cs.map Claim.start := by
    rw [List.map_map]
    rfl
  rw [contested?, contested?, hstarts]
  simp only [howners]

variable (hg : Displaces g)

include hg

theorem Displaces.claims (rs : List (SlotRequest Position)) :
    claims (rs.map g) = (claims rs).map Claim.unplaced := by
  rw [SlotRequest.claims, SlotRequest.claims, List.filterMap_map, List.map_filterMap]
  refine List.filterMap_congr fun r _ => ?_
  rw [Function.comp_apply, claim?, claim?, hg.name, hg.order, hg.width, hg.place, Option.map_map]
  rfl

theorem Displaces.placeUnpinned (next : Int) (rs : List (SlotRequest Position)) :
    placeUnpinned (cs.map Claim.unplaced) next (rs.map g) = placeUnpinned cs next rs := by
  induction rs generalizing next with
  | nil => rfl
  | cons r rest ih =>
    rw [List.map_cons, SlotRequest.placeUnpinned, SlotRequest.placeUnpinned]
    simp only [hg.name, hg.width, firstFree_unplaced, ih]

/-- The slots of requests do not depend on their places, nor on their indices but for the order. -/
theorem Displaces.slotsFor {rs : List (SlotRequest Position)}
    (hunpinned : unpinned (rs.map g) = (unpinned rs).map g) (file : String) (cls : ResourceClass) :
    EndAlike (· = ·) (Model.slotsFor file cls rs) (Model.slotsFor file cls (rs.map g)) := by
  unfold Model.slotsFor allocate
  simp only [hg.claims, contested?_unplaced, hunpinned, hg.placeUnpinned, List.map_map]
  cases contested? (SlotRequest.claims rs) with
  | some slot => exact .diagnosed _ _
  | none => exact .rfl

end Displaced

/-- A request that is made nowhere. -/
def SlotRequest.displaced (r : SlotRequest Position) : SlotRequest Position :=
  { r with place := .nowhere }

/-- A request that is made nowhere, by no statement. -/
def SlotRequest.unsited (r : SlotRequest Position) : SlotRequest Position :=
  { r with index := 0, place := .nowhere }

theorem slotsFor_displaced (rs : List (SlotRequest Position)) (file : String)
    (cls : ResourceClass) :
    EndAlike (· = ·) (Model.slotsFor file cls rs)
      (Model.slotsFor file cls (rs.map SlotRequest.displaced)) := by
  have hg : Displaces SlotRequest.displaced :=
    ⟨fun _ => rfl, fun _ => rfl, fun _ => rfl, fun _ => rfl⟩
  refine hg.slotsFor ?_ file cls
  rw [unpinned, unpinned, List.filter_map]
  exact (List.map_mergeSort (f := SlotRequest.displaced) fun _ _ _ _ => rfl).symm

theorem slotsFor_unsited {rs : List (SlotRequest Position)}
    (h : (rs.map SlotRequest.index).Pairwise (· < ·)) (file : String) (cls : ResourceClass) :
    EndAlike (· = ·) (Model.slotsFor file cls rs)
      (Model.slotsFor file cls (rs.map SlotRequest.unsited)) := by
  have hg : Displaces SlotRequest.unsited :=
    ⟨fun _ => rfl, fun _ => rfl, fun _ => rfl, fun _ => rfl⟩
  refine hg.slotsFor ?_ file cls
  have hsorted : (rs.filter fun r => r.order.isNone).Pairwise
      fun a b => decide (a.index ≤ b.index) = true :=
    ((List.pairwise_map.mp h).sublist List.filter_sublist).imp fun hlt =>
      decide_eq_true (Int.le_of_lt hlt)
  have hequal : ((rs.map SlotRequest.unsited).filter fun r => r.order.isNone).Pairwise
      fun a b => decide (a.index ≤ b.index) = true := by
    rw [List.filter_map]
    exact List.pairwise_map.mpr (List.pairwise_of_forall fun _ _ => rfl)
  rw [unpinned, unpinned, List.mergeSort_of_pairwise hsorted, List.mergeSort_of_pairwise hequal,
    List.filter_map]
  rfl

/-! ## Slots of one file -/

namespace Model

/-- The entities of each class stand in the order of their statements. -/
structure Ordered (m : Model) : Prop where
  buffers : (m.buffers.map Buffer.index).Pairwise (· < ·)
  textures : (m.textures.map Texture.index).Pairwise (· < ·)
  outputs : (m.outputs.map Output.index).Pairwise (· < ·)

/-- Slots have no part in the order of entities. -/
theorem ordered_unslotted_iff {m : Model} : m.unslotted.Ordered ↔ m.Ordered := by
  have hbuffers : m.unslotted.buffers.map Buffer.index = m.buffers.map Buffer.index := by
    rw [unslotted, List.map_map]
    rfl
  have htextures : m.unslotted.textures.map Texture.index = m.textures.map Texture.index := by
    rw [unslotted, List.map_map]
    rfl
  have houtputs : m.unslotted.outputs.map Output.index = m.outputs.map Output.index := by
    rw [unslotted, List.map_map]
    rfl
  constructor
  · rintro ⟨hb, ht, ho⟩
    exact ⟨hbuffers ▸ hb, htextures ▸ ht, houtputs ▸ ho⟩
  · rintro ⟨hb, ht, ho⟩
    exact ⟨hbuffers ▸ hb, htextures ▸ ht, houtputs ▸ ho⟩

/-- A model that differs in its slots only. -/
theorem Ordered.of_unslotted_eq {m m' : Model} (h : m.Ordered) (heq : m'.unslotted = m.unslotted) :
    m'.Ordered := by
  rw [← ordered_unslotted_iff, heq, ordered_unslotted_iff]
  exact h

theorem locateFormat?_unsited (file : String) (vf : Option VertexFormat) :
    EndAlike (fun located located' => located' = located.map VertexFormat.unsited)
      (locateFormat? file vf) (locateFormat? file (vf.map VertexFormat.unsited)) := by
  cases vf with
  | none => exact .ok rfl
  | some vf =>
    have hrequests : inputRequests vf.unsited = (inputRequests vf).map SlotRequest.displaced := by
      rw [inputRequests, inputRequests, List.map_map]
      rfl
    rw [Option.map_some, locateFormat?, locateFormat?, locateFormat, locateFormat, map_bind,
      map_bind, hrequests]
    refine (slotsFor_displaced _ file .vertexAttribute).bind_eq fun slots => ?_
    rw [map_bind, map_bind]
    refine EndAlike.rfl.bind_eq fun inputs => ?_
    exact .ok rfl

/-- What is made of resources that are the same without their sites. -/
theorem mapM_needSlot_unsited {α : Type} {name : α → String} (put : α → Int → α) {e : α → α}
    (hname : ∀ a, name (e a) = name a) (hput : ∀ a k, put (e a) k = e (put a k)) (slots : Slots)
    (as : List α) :
    EndAlike (fun bs bs' => bs' = bs.map e)
      (as.mapM fun a => do
        let slot ← needSlot slots (name a)
        .ok (put a slot))
      ((as.map e).mapM fun a => do
        let slot ← needSlot slots (name a)
        .ok (put a slot)) := by
  rw [mapM_map fun a => by
    rw [hname, map_bind]
    simp only [hput]
    rfl]
  exact .map_right _ _

/-- A model without the sites of its entities gets the same slots. -/
theorem assignSlots_unsited {m : Model} (h : m.Ordered) :
    EndAlike (fun placed placed' => placed' = placed.unsited)
      m.assignSlots m.unsited.assignSlots := by
  have hbuffers : m.unsited.bufferRequests = m.bufferRequests.map SlotRequest.unsited := by
    rw [bufferRequests, bufferRequests, unsited, List.map_map, List.map_map]
    rfl
  have htextures : m.unsited.textureRequests = m.textureRequests.map SlotRequest.unsited := by
    rw [textureRequests, textureRequests, unsited, List.map_map, List.map_map]
    rfl
  have houtputs : m.unsited.outputRequests = m.outputRequests.map SlotRequest.unsited := by
    rw [outputRequests, outputRequests, unsited, List.map_map, List.map_map]
    rfl
  rw [assignSlots, assignSlots, hbuffers, htextures, houtputs]
  refine (locateFormat?_unsited m.file m.vertexFormat).bind fun format _ hformat => ?_
  refine (slotsFor_unsited ?_ m.file .constantBuffer).bind_eq fun slots => ?_
  · rw [bufferRequests, List.map_map]
    exact List.pairwise_map.mpr ((List.pairwise_map.mp h.buffers).imp Int.ofNat_lt.mpr)
  refine (mapM_needSlot_unsited (fun (b : Buffer) slot => { b with binding := slot })
    (e := Buffer.unsited) (fun _ => rfl) (fun _ _ => rfl) slots m.buffers).bind
    fun buffers _ hbuffers => ?_
  refine (slotsFor_unsited ?_ m.file .texture).bind_eq fun slots => ?_
  · rw [textureRequests, List.map_map]
    exact List.pairwise_map.mpr ((List.pairwise_map.mp h.textures).imp Int.ofNat_lt.mpr)
  refine (mapM_needSlot_unsited (fun (t : Texture) slot => { t with binding := slot })
    (e := Texture.unsited) (fun _ => rfl) (fun _ _ => rfl) slots m.textures).bind
    fun textures _ htextures => ?_
  refine (slotsFor_unsited ?_ m.file .output).bind_eq fun slots => ?_
  · rw [outputRequests, List.map_map]
    exact List.pairwise_map.mpr ((List.pairwise_map.mp h.outputs).imp Int.ofNat_lt.mpr)
  refine (mapM_needSlot_unsited (fun (o : Output) slot => { o with location := slot })
    (e := Output.unsited) (fun _ => rfl) (fun _ _ => rfl) slots m.outputs).bind
    fun outputs _ houtputs => ?_
  refine .ok ?_
  rw [hformat, hbuffers, htextures, houtputs]
  rfl

theorem assignSlots_rearranged {m m' placed : Model} (h : m.Rearranged m') (hm : m.Ordered)
    (hm' : m'.Ordered) (hplaced : m.assignSlots = .ok placed) :
    ∃ placed', m'.assignSlots = .ok placed' ∧ placed.Rearranged placed' := by
  obtain ⟨_, hunsited, rfl⟩ := (assignSlots_unsited hm).exists_ok hplaced
  rw [← h.unsited] at hunsited
  obtain ⟨placed', hplaced', heq⟩ := (assignSlots_unsited hm').exists_ok_left hunsited
  refine ⟨placed', hplaced', heq.symm, ?_⟩
  rw [structs_eq_of_unslotted (assignSlots_unslotted hplaced),
    structs_eq_of_unslotted (assignSlots_unslotted hplaced')]
  exact h.structs

end Model

/-! ## Slots of a program -/

namespace Program

section MapError

variable {ε ε' α β : Type} {e : ε → ε'}

theorem mapError_bind (x : Except ε α) (f : α → Except ε β) :
    (x >>= f).mapError e = x.mapError e >>= fun a => (f a).mapError e := by
  cases x <;> rfl

theorem mapError_foldlM {R : α → α → Prop} {f : β → α → Except ε β}
    (h : ∀ a a', R a a' → ∀ b, (f b a').mapError e = (f b a).mapError e) {as as' : List α}
    (has : List.Forall₂ R as as') (b : β) :
    (as'.foldlM f b).mapError e = (as.foldlM f b).mapError e := by
  induction has generalizing b with
  | nil => rfl
  | cons hr _ ih =>
    rw [List.foldlM_cons, List.foldlM_cons, mapError_bind, mapError_bind, h _ _ hr]
    exact congrArg _ (funext ih)

theorem mapError_eq_ok {x : Except ε α} {a : α} (h : x.mapError e = (Except.ok a).mapError e) :
    x = .ok a := by
  cases x with
  | ok b => rw [Except.ok.inj h]
  | error d => cases h

theorem mapError_eq_error {x : Except ε α} {d : ε}
    (h : x.mapError e = (Except.error d).mapError e) : ∃ d', x = .error d' ∧ e d' = e d := by
  cases x with
  | ok b => cases h
  | error d' => exact ⟨d', rfl, Except.error.inj h⟩

end MapError

/-- Two resources that ask for the same. -/
structure AsksAlike (s s' : Shared) : Prop where
  name : s'.name = s.name
  order : s'.order = s.order

/-- Two files whose resources ask for the same, in the same order. -/
structure AlikeStage (stage stage' : Stage) : Prop where
  file : stage'.file = stage.file
  resources : List.Forall₂ AsksAlike stage.resources stage'.resources
  declared : stage'.declared = stage.declared

/-- What asks for the same clashes in the same file. -/
theorem addPin_alike (resource file : String) {s s' : Shared} (h : AsksAlike s s')
    (pins : List Pin) : (addPin resource file pins s').mapError Diagnostic.file =
      (addPin resource file pins s).mapError Diagnostic.file := by
  have hclash : ∀ slot, (pinClash? resource file pins s' slot).map Diagnostic.file =
      (pinClash? resource file pins s slot).map Diagnostic.file := by
    intro slot
    simp only [pinClash?, h.name]
    split
    · rfl
    · split <;> rfl
  unfold addPin
  rw [h.name, h.order]
  split
  · rfl
  · rename_i slot _
    have hclash := hclash slot
    cases hs : pinClash? resource file pins s slot <;>
      cases hs' : pinClash? resource file pins s' slot <;> simp_all [Except.mapError]

theorem slots_alike (resource : String) {stages stages' : List Stage}
    (h : List.Forall₂ AlikeStage stages stages') :
    (slots resource stages').mapError Diagnostic.file =
      (slots resource stages).mapError Diagnostic.file := by
  have hadd : ∀ stage stage', AlikeStage stage stage' → ∀ pins,
      (addStage resource pins stage').mapError Diagnostic.file =
        (addStage resource pins stage).mapError Diagnostic.file := by
    intro stage stage' hstage pins
    rw [addStage, addStage, hstage.file]
    exact mapError_foldlM (R := AsksAlike) (fun _ _ => addPin_alike resource stage.file)
      hstage.resources pins
  have hdeclared : stages'.flatMap Stage.declared = stages.flatMap Stage.declared := by
    rw [List.flatMap_def, List.flatMap_def, map_eq_of_forall₂ h fun _ _ hs => hs.declared]
  rw [slots, slots, mapError_bind, mapError_bind, hdeclared, pinsOf, pinsOf, mapError_foldlM hadd h]

/-- The same model, or one that is rearranged, with the entities in the order of their
statements. -/
inductive Kin (m : Model) : Model → Prop
  | same : Kin m m
  | rearranged (m' : Model) (h : m.Rearranged m') (hm : m.Ordered) (hm' : m'.Ordered) : Kin m m'

/-- Resources in the order of their statements are declared in that order. -/
theorem declared_of_pairwise {stage : Stage}
    (h : (stage.resources.map Shared.index).Pairwise (· < ·)) :
    stage.declared = stage.resources.map Shared.name := by
  rw [Stage.declared, List.mergeSort_of_pairwise]
  exact (List.pairwise_map.mp h).imp fun hlt => decide_eq_true (Nat.le_of_lt hlt)

theorem asksAlike_of_map {ss ss' : List Shared}
    (h : ss'.map (fun s => (s.name, s.order)) = ss.map fun s => (s.name, s.order)) :
    List.Forall₂ AsksAlike ss ss' := by
  rw [← List.forall₂_eq_eq_eq, List.forall₂_map_left_iff, List.forall₂_map_right_iff] at h
  exact h.flip.imp fun s s' heq => ⟨(Prod.mk.inj heq).1, (Prod.mk.inj heq).2⟩

theorem AlikeStage.of_map {stage stage' : Stage} (hfile : stage'.file = stage.file)
    (h : stage'.resources.map (fun s => (s.name, s.order)) =
      stage.resources.map fun s => (s.name, s.order))
    (hstage : (stage.resources.map Shared.index).Pairwise (· < ·))
    (hstage' : (stage'.resources.map Shared.index).Pairwise (· < ·)) : AlikeStage stage stage' := by
  refine ⟨hfile, asksAlike_of_map h, ?_⟩
  have hnames := congrArg (List.map Prod.fst) h
  rw [List.map_map, List.map_map] at hnames
  rw [declared_of_pairwise hstage, declared_of_pairwise hstage']
  exact hnames

theorem Kin.buffersOf {m m' : Model} (h : Kin m m') : AlikeStage (buffersOf m) (buffersOf m') := by
  cases h with
  | same => exact ⟨rfl, List.forall₂_same.mpr fun _ _ => ⟨rfl, rfl⟩, rfl⟩
  | rearranged _ h hm hm' =>
    have hasks : ∀ m : Model, (Program.buffersOf m).resources.map (fun s => (s.name, s.order)) =
        m.unsited.buffers.map fun b => (b.name, b.order) := fun m => by
      rw [Program.buffersOf, Model.unsited, List.map_map, List.map_map]
      rfl
    have hindices : ∀ m : Model, (Program.buffersOf m).resources.map Shared.index =
        m.buffers.map Buffer.index := fun m => by
      rw [Program.buffersOf, List.map_map]
      rfl
    refine .of_map h.file ?_ ?_ ?_
    · rw [hasks, hasks, h.unsited]
    · rw [hindices]
      exact hm.buffers
    · rw [hindices]
      exact hm'.buffers

theorem Kin.texturesOf {m m' : Model} (h : Kin m m') :
    AlikeStage (texturesOf m) (texturesOf m') := by
  cases h with
  | same => exact ⟨rfl, List.forall₂_same.mpr fun _ _ => ⟨rfl, rfl⟩, rfl⟩
  | rearranged _ h hm hm' =>
    have hasks : ∀ m : Model, (Program.texturesOf m).resources.map (fun s => (s.name, s.order)) =
        m.unsited.textures.map fun t => (t.name, none) := fun m => by
      rw [Program.texturesOf, Model.unsited, List.map_map, List.map_map]
      rfl
    have hindices : ∀ m : Model, (Program.texturesOf m).resources.map Shared.index =
        m.textures.map Texture.index := fun m => by
      rw [Program.texturesOf, List.map_map]
      rfl
    refine .of_map h.file ?_ ?_ ?_
    · rw [hasks, hasks, h.unsited]
    · rw [hindices]
      exact hm.textures
    · rw [hindices]
      exact hm'.textures

theorem Kin.rebind {m m' : Model} (h : Kin m m') (buffers textures : Slots) :
    Kin (rebind buffers textures m) (rebind buffers textures m') := by
  cases h with
  | same => exact .same
  | rearranged _ h hm hm' =>
    have hunsited : ∀ m : Model, (Program.rebind buffers textures m).unsited =
        Program.rebind buffers textures m.unsited := fun m => by
      simp only [Program.rebind, Model.unsited, List.map_map]
      rfl
    refine .rearranged _ ⟨?_, h.structs⟩ (hm.of_unslotted_eq (rebind_unslotted ..))
      (hm'.of_unslotted_eq (rebind_unslotted ..))
    rw [hunsited, hunsited, h.unsited]

/-- Models that are the same or rearranged get the same common slots, or clash in the same file. -/
theorem relocate_kin {ms ms' : List Model} (h : List.Forall₂ Kin ms ms') :
    (∃ rs rs', relocate ms = .ok rs ∧ relocate ms' = .ok rs' ∧ List.Forall₂ Kin rs rs') ∨
      ∃ d d', relocate ms = .error d ∧ relocate ms' = .error d' ∧ d'.file = d.file := by
  have hbuffersOf : List.Forall₂ AlikeStage (ms.map buffersOf) (ms'.map buffersOf) := by
    rw [List.forall₂_map_left_iff, List.forall₂_map_right_iff]
    exact h.imp fun _ _ hm => hm.buffersOf
  have htexturesOf : List.Forall₂ AlikeStage (ms.map texturesOf) (ms'.map texturesOf) := by
    rw [List.forall₂_map_left_iff, List.forall₂_map_right_iff]
    exact h.imp fun _ _ hm => hm.texturesOf
  have hbuffers := slots_alike ResourceClass.constantBuffer.text hbuffersOf
  have htextures := slots_alike ResourceClass.texture.text htexturesOf
  simp only [relocate]
  cases hb : slots ResourceClass.constantBuffer.text (ms.map buffersOf) with
  | error d =>
    rw [hb] at hbuffers
    obtain ⟨d', hd', hfile⟩ := mapError_eq_error hbuffers
    rw [hd']
    exact .inr ⟨d, d', rfl, rfl, hfile⟩
  | ok buffers =>
    rw [hb] at hbuffers
    rw [mapError_eq_ok hbuffers]
    cases ht : slots ResourceClass.texture.text (ms.map texturesOf) with
    | error d =>
      rw [ht] at htextures
      obtain ⟨d', hd', hfile⟩ := mapError_eq_error htextures
      rw [hd']
      exact .inr ⟨d, d', rfl, rfl, hfile⟩
    | ok textures =>
      rw [ht] at htextures
      rw [mapError_eq_ok htextures]
      refine .inl ⟨_, _, rfl, rfl, ?_⟩
      rw [List.forall₂_map_left_iff, List.forall₂_map_right_iff]
      exact h.imp fun _ _ hm => hm.rebind buffers textures

end Program

end AnnotatedShader
