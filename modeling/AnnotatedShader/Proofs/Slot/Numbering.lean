import AnnotatedShader.Proofs.Slot.Filling
import AnnotatedShader.Proofs.Slot.Pins
import Mathlib

set_option autoImplicit false

/-!
# The numbering of a program

A program numbers the buffers of its files, and apart from them its textures, by one map from names
to slots.  `Numbering` says what such a map is: it is injective on the names that are met, a pinned
name has its pin, and any other name the least slot that is neither pinned nor given to a name met
before it.

`slots_numbering` proves that the slots of one class are such a map, from the pins that have been
gathered and the walk that fills the free slots.  `buffersMet` and `texturesMet` are the names in
the order of files and declarations, in which the least free slots are given out.  `renumber` writes
a numbering into a model and leaves all else as it is (`rebind_eq_renumber`).
-/

namespace AnnotatedShader.Program

/-- A map from names to slots that tells names apart, keeps pins, and gives every other name, when
it is first met, the least natural number that nobody pins and no earlier name has. -/
structure Numbering (Pinned : String → Int → Prop) (met : List String) (slot : String → Int) :
    Prop where
  injective : ∀ name ∈ met, ∀ name' ∈ met, slot name = slot name' → name = name'
  pinned : ∀ name k, Pinned name k → slot name = k
  least : ∀ before name after, met = before ++ name :: after → name ∉ before →
    (∀ k, ¬ Pinned name k) →
      IsLeast {k | 0 ≤ k ∧ (∀ name', ¬ Pinned name' k) ∧ ∀ name' ∈ before, slot name' ≠ k}
        (slot name)

/-! ## The slots of one class -/

/-- The pins as they are handed to the walk. -/
def slotsOfPins (pins : List Pin) : Slots := pins.map fun p => (p.name, p.slot)

/-- Pins that are recorded are found under their names. -/
theorem slot?_slotsOfPins {pins : List Pin} {claims : List (String × Int)}
    (hr : Records pins claims) {name : String} {slot : Int} :
    (slotsOfPins pins).slot? name = some slot ↔ (name, slot) ∈ claims := by
  rw [Slots.slot?, List.lookup_eq_some_iff]
  constructor
  · rintro ⟨l₁, l₂, heq, _⟩
    have hmem : (name, slot) ∈ slotsOfPins pins := by simp [heq]
    obtain ⟨p, hp, hpair⟩ := List.mem_map.mp hmem
    obtain ⟨hname, hslot⟩ := Prod.mk.inj hpair
    exact (hr.mem_iff name slot).mp ⟨p, hp, hname, hslot⟩
  · intro hmem
    obtain ⟨p, hp, hname, hslot⟩ := (hr.mem_iff name slot).mpr hmem
    obtain ⟨k, hk⟩ : ∃ k, (slotsOfPins pins).lookup name = some k := by
      rw [← Option.isSome_iff_exists, List.lookup_isSome_iff]
      exact ⟨(p.name, p.slot), List.mem_map_of_mem hp, by simp [hname]⟩
    obtain ⟨l₁, l₂, heq, hl⟩ := List.lookup_eq_some_iff.mp hk
    have hmem' : (name, k) ∈ slotsOfPins pins := by simp [heq]
    obtain ⟨q, hq, hpair⟩ := List.mem_map.mp hmem'
    obtain ⟨hqname, hqslot⟩ := Prod.mk.inj hpair
    have hclaim := (hr.mem_iff name k).mp ⟨q, hq, hqname, hqslot⟩
    obtain rfl : slot = k := (hr.consistent _ hmem _ hclaim).mp rfl
    exact ⟨l₁, l₂, heq, hl⟩

/-- The slots that the walk may give are those that nobody pins and no earlier name has. -/
theorem freeFor_eq {pins : List Pin} {claims : List (String × Int)} (hr : Records pins claims)
    {before : List String} {table : Slots} {slot : String → Int}
    (hbefore : ∀ name ∈ before, table.slot? name = some (slot name)) :
    freeFor (pins.map Pin.slot) before table =
      {k | 0 ≤ k ∧ (∀ name, (name, k) ∉ claims) ∧ ∀ name ∈ before, slot name ≠ k} := by
  have htaken : ∀ k, k ∉ pins.map Pin.slot ↔ ∀ name, (name, k) ∉ claims := by
    intro k
    constructor
    · intro hfree name hname
      obtain ⟨p, hp, _, hslot⟩ := (hr.mem_iff name k).mpr hname
      exact hfree (hslot ▸ List.mem_map_of_mem hp)
    · intro hfree hmem
      obtain ⟨p, hp, rfl⟩ := List.mem_map.mp hmem
      exact hfree p.name ((hr.mem_iff _ _).mp ⟨p, hp, rfl, rfl⟩)
  ext k
  simp only [freeFor, htaken, Set.mem_ofPred_eq, and_congr_right_iff]
  intro _ _
  apply forall₂_congr
  intro name hname
  rw [hbefore name hname, ne_eq, Option.some.injEq]

/-- The walk starts behind the pins, with nothing met. -/
theorem frontier_start {pins : List Pin} {claims : List (String × Int)}
    (hr : Records pins claims) :
    Frontier (pins.map Pin.slot) [] 0 (slotsOfPins pins) where
  nonneg := le_refl 0
  below name slot h := by
    obtain ⟨p, hp, _, hslot⟩ := (hr.mem_iff name slot).mpr ((slot?_slotsOfPins hr).mp h)
    exact Or.inl (hslot ▸ List.mem_map_of_mem hp)
  full slot h0 hlt := by omega
  injective a b slot ha hb :=
    (hr.consistent _ ((slot?_slotsOfPins hr).mp ha) _ ((slot?_slotsOfPins hr).mp hb)).mpr rfl
  assigned name h := by simp at h

/-- The slots of a class are a numbering by what its files pin, in the order in which they are
met. -/
theorem slots_numbering {resource : String} {stages : List Stage} {table : Slots}
    (h : slots resource stages = .ok table) :
    ∃ slot : String → Int,
      (∀ name ∈ stages.flatMap Stage.declared, table.slot? name = some (slot name)) ∧
      Numbering (fun name k => (name, k) ∈ asked stages) (stages.flatMap Stage.declared) slot := by
  unfold slots at h
  rw [bind_eq_ok_iff] at h
  obtain ⟨pins, hpins, htable⟩ := h
  have hr := pinsOf_records hpins
  have hstart := frontier_start hr
  have hfill : fill (pins.map Pin.slot) 0 (slotsOfPins pins) (stages.flatMap Stage.declared) =
    table := Except.ok.inj htable
  obtain ⟨next, hend⟩ := hstart.fill (stages.flatMap Stage.declared)
  rw [List.nil_append, hfill] at hend
  have hslot : ∀ name k, table.slot? name = some k → (table.slot? name).getD unassigned = k :=
    fun name k hk => by rw [hk, Option.getD_some]
  have hassigned : ∀ name ∈ stages.flatMap Stage.declared,
      table.slot? name = some ((table.slot? name).getD unassigned) := by
    intro name hname
    obtain ⟨k, hk⟩ := hend.assigned name hname
    rw [hslot name k hk, hk]
  refine ⟨fun name => (table.slot? name).getD unassigned, hassigned, ?_, ?_, ?_⟩
  · intro a ha b hb heq
    exact hend.injective a b _ (hassigned a ha) (heq ▸ hassigned b hb)
  · intro name k hk
    apply hslot name k
    rw [← hfill]
    exact slot?_fill ((slot?_slotsOfPins hr).mpr hk)
  · intro before name after hmet hnew hfree
    have hnone : (slotsOfPins pins).slot? name = none := by
      rw [Option.eq_none_iff_forall_ne_some]
      exact fun k hk => hfree k ((slot?_slotsOfPins hr).mp hk)
    obtain ⟨k, hk, hleast⟩ := hstart.isLeast_fill after hnone hnew
    rw [← hmet, hfill] at hk hleast
    rw [freeFor_eq hr, List.nil_append] at hleast
    · rwa [hslot name k hk]
    · intro other hother
      exact hassigned other (by simpa [hmet] using Or.inl hother)

/-! ## Models -/

/-- The names of the buffers of a program in the order in which they are met: file after file, and
in each file in the order of declaration. -/
def buffersMet (ms : List Model) : List String :=
  ms.flatMap fun m => (m.buffers.mergeSort fun a b => decide (a.index ≤ b.index)).map Buffer.name

/-- The names of the textures of a program in the order in which they are met. -/
def texturesMet (ms : List Model) : List String :=
  ms.flatMap fun m => (m.textures.mergeSort fun a b => decide (a.index ≤ b.index)).map Texture.name

/-- A model whose buffers and textures have the slots that two maps give their names. -/
def renumber (buffers textures : String → Int) (m : Model) : Model :=
  { m with
    buffers := m.buffers.map fun b => { b with binding := buffers b.name }
    textures := m.textures.map fun t => { t with binding := textures t.name } }

/-- Resources are declared in the order of the entities that they stand for. -/
theorem declared_map {α : Type} (file : String) (entities : List α) (shared : α → Shared) :
    (⟨file, entities.map shared⟩ : Stage).declared =
      (entities.mergeSort fun a b => decide ((shared a).index ≤ (shared b).index)).map
        fun a => (shared a).name := by
  rw [Stage.declared, ← List.map_mergeSort
    (r := fun a b => decide ((shared a).index ≤ (shared b).index)) fun _ _ _ _ => rfl,
    List.map_map]
  rfl

theorem flatMap_declared_buffersOf (ms : List Model) :
    (ms.map buffersOf).flatMap Stage.declared = buffersMet ms := by
  simp only [List.flatMap_map, buffersOf, declared_map, buffersMet]

theorem flatMap_declared_texturesOf (ms : List Model) :
    (ms.map texturesOf).flatMap Stage.declared = texturesMet ms := by
  simp only [List.flatMap_map, texturesOf, declared_map, texturesMet]

theorem name_mem_buffersMet {ms : List Model} {m : Model} {b : Buffer} (hm : m ∈ ms)
    (hb : b ∈ m.buffers) : b.name ∈ buffersMet ms :=
  List.mem_flatMap.mpr ⟨m, hm, List.mem_map_of_mem (List.mem_mergeSort.mpr hb)⟩

theorem name_mem_texturesMet {ms : List Model} {m : Model} {t : Texture} (hm : m ∈ ms)
    (ht : t ∈ m.textures) : t.name ∈ texturesMet ms :=
  List.mem_flatMap.mpr ⟨m, hm, List.mem_map_of_mem (List.mem_mergeSort.mpr ht)⟩

/-- What the files of a program pin are the orders of their buffers. -/
theorem mem_asked_buffersOf {ms : List Model} {name : String} {k : Int} :
    (name, k) ∈ asked (ms.map buffersOf) ↔
      ∃ m ∈ ms, ∃ b ∈ m.buffers, b.name = name ∧ b.order = some k := by
  simp only [mem_asked_iff, List.mem_map, buffersOf, exists_exists_and_eq_and]

/-- Textures are not pinned. -/
theorem not_mem_asked_texturesOf {ms : List Model} {name : String} {k : Int} :
    (name, k) ∉ asked (ms.map texturesOf) := by
  simp [mem_asked_iff, texturesOf]

/-- Slots that are there for all names of a model are the only ones it can get. -/
theorem rebind_eq_renumber {buffers textures : Slots} {slot slot' : String → Int} {m : Model}
    (hb : ∀ b ∈ m.buffers, buffers.slot? b.name = some (slot b.name))
    (ht : ∀ t ∈ m.textures, textures.slot? t.name = some (slot' t.name)) :
    rebind buffers textures m = renumber slot slot' m := by
  have hbuffers : (m.buffers.map fun b =>
      { b with binding := (buffers.slot? b.name).getD b.binding }) =
        m.buffers.map fun b => { b with binding := slot b.name } :=
    List.map_congr_left fun b hmem => by rw [hb b hmem, Option.getD_some]
  have htextures : (m.textures.map fun t =>
      { t with binding := (textures.slot? t.name).getD t.binding }) =
        m.textures.map fun t => { t with binding := slot' t.name } :=
    List.map_congr_left fun t hmem => by rw [ht t hmem, Option.getD_some]
  rw [rebind, renumber, hbuffers, htextures]

/-- The files of a program share one numbering of their buffers and another one of their textures,
and get nothing else from it. -/
theorem relocate_numbering {ms rs : List Model} (h : relocate ms = .ok rs) :
    ∃ buffers textures : String → Int,
      rs = ms.map (renumber buffers textures) ∧
      Numbering (fun name k => ∃ m ∈ ms, ∃ b ∈ m.buffers, b.name = name ∧ b.order = some k)
        (buffersMet ms) buffers ∧
      Numbering (fun _ _ => False) (texturesMet ms) textures := by
  unfold relocate at h
  rw [bind_eq_ok_iff] at h
  obtain ⟨bufferTable, hbuffers, h⟩ := h
  rw [bind_eq_ok_iff] at h
  obtain ⟨textureTable, htextures, h⟩ := h
  obtain ⟨buffers, hbufferTable, hb⟩ := slots_numbering hbuffers
  obtain ⟨textures, htextureTable, ht⟩ := slots_numbering htextures
  rw [flatMap_declared_buffersOf] at hbufferTable hb
  rw [flatMap_declared_texturesOf] at htextureTable ht
  refine ⟨buffers, textures, ?_, ?_, ?_⟩
  · rw [← Except.ok.inj h]
    refine List.map_congr_left fun m hm => rebind_eq_renumber ?_ ?_
    · exact fun b hmem => hbufferTable b.name (name_mem_buffersMet hm hmem)
    · exact fun t hmem => htextureTable t.name (name_mem_texturesMet hm hmem)
  · simpa only [mem_asked_buffersOf] using hb
  · simpa only [not_mem_asked_texturesOf] using ht

/-- A buffer without members. -/
def plainBuffer (name : String) (order : Option Int) (index : Nat) : Buffer :=
  ⟨name, [], order, index, "scene", .start, ⟨[], 0, 16⟩, unassigned, false⟩

/-- Two stages: the second one pins `Camera`, which the first one meets unpinned. -/
def twoStages : List Model :=
  [{ Model.empty "front" .vertex with
      buffers := [plainBuffer "Camera" none 3, plainBuffer "Light" none 1] },
   { Model.empty "back" .pixel with
      buffers := [plainBuffer "Fog" (some 0) 0, plainBuffer "Camera" (some 1) 1,
        plainBuffer "Light" none 2, plainBuffer "Surface" none 3] }]

theorem relocate_numbering_twoStages :
    ∃ rs, relocate twoStages = .ok rs ∧
      rs.map (fun m => m.buffers.map Buffer.binding) = [[1, 2], [0, 1, 2, 3]] ∧
      ∃ buffers textures : String → Int,
        rs = twoStages.map (renumber buffers textures) ∧
        Numbering
          (fun name k => ∃ m ∈ twoStages, ∃ b ∈ m.buffers, b.name = name ∧ b.order = some k)
          (buffersMet twoStages) buffers ∧
        Numbering (fun _ _ => False) (texturesMet twoStages) textures := by
  have hslots : (relocate twoStages).map (fun rs => rs.map fun m => m.buffers.map Buffer.binding) =
      .ok [[1, 2], [0, 1, 2, 3]] := by cbv
  obtain ⟨rs, h, heq⟩ := map_eq_ok_iff.mp hslots
  exact ⟨rs, h, heq, relocate_numbering h⟩

end AnnotatedShader.Program
