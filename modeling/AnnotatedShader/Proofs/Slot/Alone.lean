import AnnotatedShader.Proofs.Slot.Allotment
import AnnotatedShader.Proofs.Slot.Assignment
import AnnotatedShader.Proofs.Slot.Rearranged
import Mathlib

set_option autoImplicit false

/-!
# One numbering for a file and its program

Buffers and textures take single slots.  When a file gives them out, a request that is not pinned
gets the first slot behind the one before it that nobody is pinned to, and no such slot is left out;
so what it gets is the least one that nobody has.  A program gives out slots by this very rule, and
there is only one numbering by it.

`Numbering`, from the theory of programs, is that rule, and `Numbering.unique` that it leaves no
choice.  `allocate_numbering` has the slots of one file as a numbering of its requests.  `Numbered`
says it of a model with its buffers and textures, and is what relocation of a single file is
compared with.
-/

namespace AnnotatedShader

variable {Place : Type}

namespace Program

/-- Pins and the order in which names are met determine all slots. -/
theorem Numbering.unique {Pinned : String → Int → Prop} {met : List String}
    {slot slot' : String → Int} (h : Numbering Pinned met slot) (h' : Numbering Pinned met slot')
    {name : String} (hname : name ∈ met) : slot name = slot' name := by
  -- by induction on what has been met, from its end
  have hmet : ∀ before after, met = before ++ after → ∀ name ∈ before, slot name = slot' name := by
    intro before
    induction before using List.reverseRecOn with
    | nil => simp
    | append_singleton before last ih =>
      intro after hsplit name hname
      rw [List.append_assoc, List.singleton_append] at hsplit
      have hbefore := ih (last :: after) hsplit
      by_cases hold : name ∈ before
      · exact hbefore name hold
      · obtain rfl : name = last := by simpa [hold] using hname
        by_cases hpin : ∃ k, Pinned name k
        · obtain ⟨k, hk⟩ := hpin
          rw [h.pinned name k hk, h'.pinned name k hk]
        · have hfree : ∀ k, ¬ Pinned name k := fun k hk => hpin ⟨k, hk⟩
          have hleast := h.least before name after hsplit hold hfree
          have hleast' := h'.least before name after hsplit hold hfree
          have hsame :
              ∀ k, (∀ name' ∈ before, slot name' ≠ k) ↔ ∀ name' ∈ before, slot' name' ≠ k :=
            fun k => forall₂_congr fun other hother => by rw [hbefore other hother]
          simp only [hsame] at hleast
          exact hleast.unique hleast'
  exact hmet met [] (List.append_nil met).symm name hname

end Program

namespace SlotRequest

/-! ## Single slots one behind the other -/

theorem map_name_fitted (cs : List (Claim Place)) (next : Int) (us : List (SlotRequest Place)) :
    (fitted cs next us).map Claim.name = us.map name := by
  induction us generalizing next with
  | nil => rfl
  | cons r rest ih => rw [fitted, List.map_cons, ih, List.map_cons, claimAt]

/-- Requests for single slots leave out no free slot. -/
theorem exists_fitted {cs : List (Claim Place)} {us : List (SlotRequest Place)}
    (hone : ∀ r ∈ us, r.width = 1) {next k : Int} (hle : next ≤ k)
    (hlt : k < behind next (fitted cs next us)) (hfree : isFree cs 1 k = true) :
    ∃ c ∈ fitted cs next us, c.start = k := by
  induction us generalizing next with
  | nil => exact absurd hle (Int.not_le.mpr hlt)
  | cons r rest ih =>
    obtain ⟨hr, hrest⟩ := List.forall_mem_cons.mp hone
    rw [fitted, behind_cons] at hlt
    simp only [fitted, hr, claimAt, Claim.ending] at hlt ⊢
    have hfirst : firstFree cs 1 next ≤ k := searchFree_le hle hfree
    rcases Int.lt_or_eq_of_le hfirst with hbefore | heq
    · obtain ⟨c, hc, hstart⟩ := ih hrest (Int.add_one_le_of_lt hbefore) hlt
      exact ⟨c, List.mem_cons_of_mem _ hc, hstart⟩
    · exact ⟨_, List.mem_cons_self, heq⟩

/-- The requests that are not pinned, of requests in the order of their declaration. -/
theorem unpinned_of_ordered {rs : List (SlotRequest Place)}
    (h : rs.Pairwise fun a b => a.index < b.index) :
    unpinned rs = rs.filter fun r => r.order.isNone :=
  List.mergeSort_of_pairwise ((h.sublist List.filter_sublist).imp fun hlt => by
    simpa using Int.le_of_lt hlt)

section Granted

variable {rs : List (SlotRequest Place)} (hnames : (rs.map name).Nodup)
  (hordered : rs.Pairwise fun a b => a.index < b.index) (hone : ∀ r ∈ rs, r.width = 1)

include hnames hordered hone

/-- What a request gets that is not pinned is the least slot that nobody is pinned to and none of
the requests in front of it has. -/
theorem isLeast_slot {slot : String → Int} (hgranted : ∀ c ∈ granted rs, slot c.name = c.start)
    (hinjective : ∀ r ∈ rs, ∀ s ∈ rs, slot r.name = slot s.name → r.name = s.name)
    {front back : List (SlotRequest Place)} {r : SlotRequest Place}
    (hsplit : rs = front ++ r :: back)
    (hnone : r.order = none) :
    IsLeast {k | 0 ≤ k ∧ (∀ s ∈ rs, s.order ≠ some k) ∧ ∀ s ∈ front, slot s.name ≠ k}
      (slot r.name) := by
  have hr : r ∈ rs := by simp [hsplit]
  have hfront : ∀ s ∈ front, s ∈ rs := fun s hs => by simp [hsplit, hs]
  have hwidths : ∀ s ∈ rs, 0 < s.width := fun s hs => by rw [hone s hs]; decide
  have hunpinned : unpinned rs = front.filter (·.order.isNone) ++
      r :: back.filter (·.order.isNone) := by
    rw [unpinned_of_ordered hordered, hsplit, List.filter_append,
      List.filter_cons_of_pos (by simp [hnone])]
  generalize hbefore : front.filter (·.order.isNone) = before at hunpinned
  have hmem : ∀ s ∈ before, s ∈ front := fun s hs => List.mem_of_mem_filter (hbefore ▸ hs)
  have hsingle : ∀ s ∈ before, s.width = 1 := fun s hs => hone s (hfront s (hmem s hs))
  have hslot := slot_of_split hgranted hunpinned
  obtain ⟨⟨hbehind, hclear⟩, hlower⟩ := isLeast_firstFree hwidths Int.one_pos
    (behind 0 (fitted (claims rs) 0 before))
  rw [hone r hr] at hslot
  rw [← hslot] at hbehind hclear hlower
  refine ⟨⟨?_, (clear_single_iff hone _).mp hclear, fun s hs heq => ?_⟩, ?_⟩
  · exact Int.le_trans (le_behind _ 0 fun s hs => by rw [hsingle s hs]; decide) hbehind
  · have hdistinct := (List.map_append ▸ hsplit ▸ hnames : (front.map name ++ _).Nodup)
    exact (List.nodup_append.mp hdistinct).2.2 s.name (List.mem_map_of_mem hs) r.name (by simp)
      (hinjective s (hfront s hs) r hr heq)
  · rintro k ⟨hk, hkfree, hkfront⟩
    have hkclear := (clear_single_iff hone k).mpr hkfree
    refine hlower ⟨Int.not_lt.mp fun hlt => ?_, hkclear⟩
    -- a slot in front of the cursor has been given to a request in front of this one
    obtain ⟨c, hc, hstart⟩ := exists_fitted hsingle hk hlt
      ((isFree_eq_true_iff hwidths Int.one_pos).mpr hkclear)
    have hcname : c.name ∈ before.map name := by
      rw [← map_name_fitted (claims rs) 0]
      exact List.mem_map_of_mem hc
    obtain ⟨s, hs, hsname⟩ := List.mem_map.mp hcname
    refine hkfront s (hmem s hs) ?_
    rw [hsname, hgranted c (List.mem_append_right _ ?_), hstart]
    rw [hunpinned, fitted_append]
    exact List.mem_append_left _ hc

/-- The slots of requests for single slots are a numbering of their names. -/
theorem allocate_numbering {table : Slots} (h : allocate rs = .ok table) :
    ∃ slot : String → Int, (∀ r ∈ rs, table.slot? r.name = some (slot r.name)) ∧
      Program.Numbering (fun name k => ∃ r ∈ rs, r.name = name ∧ r.order = some k) (rs.map name)
        slot := by
  have hwidths : ∀ r ∈ rs, 0 < r.width := fun r hr => by rw [hone r hr]; decide
  obtain ⟨slot, hslot, hgranted⟩ := exists_slot hnames hwidths h
  have hinjective : ∀ r ∈ rs, ∀ s ∈ rs, slot r.name = slot s.name → r.name = s.name :=
    fun r hr s hs heq => allocate_injective hnames hwidths h (hslot r hr) (heq ▸ hslot s hs)
  refine ⟨slot, hslot, ?_, ?_, ?_⟩
  · simp only [List.mem_map]
    rintro _ ⟨r, hr, rfl⟩ _ ⟨s, hs, rfl⟩
    exact hinjective r hr s hs
  · rintro _ k ⟨r, hr, rfl, hk⟩
    exact slot_of_pinned hgranted hr hk
  · intro before name after hsplit _ hfree
    obtain ⟨front, others, hrs, rfl, hothers⟩ := List.map_eq_append_iff.mp hsplit
    obtain ⟨r, back, rfl, rfl, rfl⟩ := List.map_eq_cons_iff.mp hothers
    have hnone : r.order = none := Option.eq_none_iff_forall_ne_some.mpr fun k hk =>
      hfree k ⟨r, by simp [hrs], rfl, hk⟩
    have hleast := isLeast_slot hnames hordered hone hgranted hinjective hrs hnone
    have hpinned : ∀ k, (∀ name, ¬ ∃ s ∈ rs, s.name = name ∧ s.order = some k) ↔
        ∀ s ∈ rs, s.order ≠ some k := by
      intro k
      constructor
      · exact fun hk s hs horder => hk s.name ⟨s, hs, rfl, horder⟩
      · rintro hk _ ⟨s, hs, rfl, horder⟩
        exact hk s hs horder
    simpa only [hpinned, List.forall_mem_map] using hleast

end Granted

end SlotRequest

/-! ## Models -/

namespace Model

open Program (Numbering)

/-- The buffers and the textures of a model have the slots of two numberings, in the order in which
the model holds them. -/
structure Numbered (m : Model) (bufferSlot textureSlot : String → Int) : Prop where
  buffers : Numbering (fun name k => ∃ b ∈ m.buffers, b.name = name ∧ b.order = some k)
    (m.buffers.map Buffer.name) bufferSlot
  bindings : ∀ b ∈ m.buffers, b.binding = bufferSlot b.name
  textures : Numbering (fun _ _ => False) (m.textures.map Texture.name) textureSlot
  units : ∀ t ∈ m.textures, t.binding = textureSlot t.name

/-- Resources get the slots that a table has for their names. -/
theorem eq_map_of_mapM_needSlot {α : Type} {name : α → String} (put : α → Int → α)
    {resources placed : List α} {table : Slots} {slot : String → Int}
    (hslot : ∀ a ∈ resources, table.slot? (name a) = some (slot (name a)))
    (h : (resources.mapM fun a => do
      let k ← needSlot table (name a)
      .ok (put a k)) = .ok placed) : placed = resources.map fun a => put a (slot (name a)) := by
  induction resources generalizing placed with
  | nil => exact (Except.ok.inj h).symm
  | cons a rest ih =>
    obtain ⟨hfirst, hrest⟩ := List.forall_mem_cons.mp hslot
    simp only [List.mapM_cons, bind_eq_ok_iff, needSlot_eq_ok_iff] at h
    obtain ⟨b, ⟨k, hk, hb⟩, others, hothers, h⟩ := h
    obtain rfl := Option.some.inj (hk.symm.trans hfirst)
    rw [List.map_cons, ← ih hrest hothers, Except.ok.inj hb]
    exact (Except.ok.inj h).symm

/-- The slots of a file number its model. -/
theorem assignSlots_numbered {m m' : Model} (hnames : m.names.Nodup) (hordered : m.Ordered)
    (h : m.assignSlots = .ok m') : ∃ buffers textures, m'.Numbered buffers textures := by
  obtain ⟨hbufferNames, htextureNames, _⟩ := nodup_of_names hnames
  simp only [assignSlots, bind_eq_ok_iff, slotsFor_eq_ok_iff] at h
  obtain ⟨_, _, _, hbuffers, buffers, hplacedBuffers, _, htextures, textures, hplacedTextures,
    _, _, _, _, h⟩ := h
  obtain rfl := Except.ok.inj h
  obtain ⟨bufferSlot, hbufferSlot, hbufferNumbering⟩ := SlotRequest.allocate_numbering
    (by simpa [bufferRequests, Function.comp_def] using hbufferNames)
    (by simpa [bufferRequests, List.pairwise_map] using hordered.buffers)
    (by simp [bufferRequests]) hbuffers
  obtain ⟨textureSlot, htextureSlot, htextureNumbering⟩ := SlotRequest.allocate_numbering
    (by simpa [textureRequests, Function.comp_def] using htextureNames)
    (by simpa [textureRequests, List.pairwise_map] using hordered.textures)
    (by simp [textureRequests]) htextures
  rw [bufferRequests, List.forall_mem_map] at hbufferSlot
  rw [textureRequests, List.forall_mem_map] at htextureSlot
  have hb := eq_map_of_mapM_needSlot (fun (b : Buffer) slot => { b with binding := slot })
    hbufferSlot hplacedBuffers
  have ht := eq_map_of_mapM_needSlot (fun (t : Texture) slot => { t with binding := slot })
    htextureSlot hplacedTextures
  refine ⟨bufferSlot, textureSlot, ?_, ?_, ?_, ?_⟩
  · simpa [hb, bufferRequests, Function.comp_def] using hbufferNumbering
  · simp [hb]
  · simpa [ht, textureRequests, Function.comp_def] using htextureNumbering
  · simp [ht]

end Model

end AnnotatedShader
