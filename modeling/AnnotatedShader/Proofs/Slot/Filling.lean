import AnnotatedShader.Slot.Program
import Mathlib.Order.Bounds.Basic

set_option autoImplicit false

/-!
# Filling free slots

The names that no file pins get their slots from a cursor that moves upward.  The state of the walk
is described by `Frontier`: below the cursor every slot is pinned or belongs to a name that has been
met.  So the slot under the cursor is the least free one whenever a name is met for the first time
(`Frontier.isLeast_searchSlot`).

A name that has been met keeps its slot (`Frontier.keep`), a new one gets that of the cursor
(`Frontier.assign`), and over all names `Frontier.fill` says what the table holds in the end.  The
search for the next slot ends behind the pins, which are finitely many.
-/

namespace AnnotatedShader.Program

/-! ## The search -/

theorem le_searchSlot (taken : List Int) (fuel : Nat) (next : Int) :
    next ≤ searchSlot taken fuel next := by
  induction fuel generalizing next with
  | zero => exact le_refl next
  | succ fuel ih =>
    unfold searchSlot
    split
    · have := ih (next + 1)
      omega
    · exact le_refl next

/-- The search passes over taken slots only. -/
theorem mem_of_lt_searchSlot {taken : List Int} {fuel : Nat} {next slot : Int} (hle : next ≤ slot)
    (hlt : slot < searchSlot taken fuel next) : slot ∈ taken := by
  induction fuel generalizing next with
  | zero =>
    unfold searchSlot at hlt
    omega
  | succ fuel ih =>
    unfold searchSlot at hlt
    split at hlt
    · rename_i hmem
      by_cases heq : next = slot
      · simpa [heq] using hmem
      · exact ih (by omega) hlt
    · omega

/-- The search stops at a slot that is not taken, or when its fuel is spent. -/
theorem searchSlot_stop (taken : List Int) (fuel : Nat) (next : Int) :
    searchSlot taken fuel next ∉ taken ∨ searchSlot taken fuel next = next + fuel := by
  induction fuel generalizing next with
  | zero => exact Or.inr (by simp [searchSlot])
  | succ fuel ih =>
    unfold searchSlot
    split
    · apply (ih (next + 1)).imp_right
      intro h
      rw [h]
      omega
    · rename_i hmem
      exact Or.inl (by simpa using hmem)

/-- As many steps as there are taken slots are enough: so many slots in a row and one more cannot
all be taken. -/
theorem searchSlot_not_mem (taken : List Int) (next : Int) :
    searchSlot taken taken.length next ∉ taken := by
  rcases searchSlot_stop taken taken.length next with h | h
  · exact h
  · intro hmem
    have hsub : (List.range (taken.length + 1)).map (fun i : Nat => next + (i : Int)) ⊆ taken := by
      intro slot hslot
      obtain ⟨i, hi, rfl⟩ := List.mem_map.mp hslot
      rw [List.mem_range] at hi
      by_cases hlast : i = taken.length
      · rwa [hlast, ← h]
      · have hlt : next + (i : Int) < searchSlot taken taken.length next := by omega
        exact mem_of_lt_searchSlot (by omega) hlt
    have hnodup : ((List.range (taken.length + 1)).map fun i : Nat => next + (i : Int)).Nodup := by
      rw [List.Nodup, List.pairwise_map]
      exact List.nodup_range.imp fun hne heq => hne (by omega)
    have hlength := hnodup.length_le_of_subset hsub
    rw [List.length_map, List.length_range] at hlength
    omega

/-! ## The walk -/

/-- The state of the walk: the names met so far have slots, no slot has two names, and below the
cursor nothing is free. -/
structure Frontier (taken : List Int) (met : List String) (next : Int) (slots : Slots) : Prop where
  nonneg : 0 ≤ next
  below : ∀ name slot, slots.slot? name = some slot → slot ∈ taken ∨ slot < next
  full : ∀ slot, 0 ≤ slot → slot < next →
    slot ∈ taken ∨ ∃ name ∈ met, slots.slot? name = some slot
  injective : ∀ name name' slot,
    slots.slot? name = some slot → slots.slot? name' = some slot → name = name'
  assigned : ∀ name ∈ met, ∃ slot, slots.slot? name = some slot

/-- The slots that are free for a name: neither taken nor given to a name met before. -/
def freeFor (taken : List Int) (met : List String) (slots : Slots) : Set Int :=
  {slot | 0 ≤ slot ∧ slot ∉ taken ∧ ∀ name ∈ met, slots.slot? name ≠ some slot}

theorem slot?_append (slots : Slots) (name other : String) (slot : Int) :
    Slots.slot? (slots ++ [(name, slot)]) other =
      (slots.slot? other).or (if other = name then some slot else none) := by
  rw [Slots.slot?, List.lookup_append]
  by_cases h : other = name
  · simp [Slots.slot?, h]
  · simp [Slots.slot?, List.lookup_cons, h, beq_false_of_ne h]

/-- A name that has been given a slot is found, beside those that had one. -/
theorem slot?_append_eq_some_iff {slots : Slots} {name : String} (h : slots.slot? name = none)
    (given : Int) (other : String) (slot : Int) :
    Slots.slot? (slots ++ [(name, given)]) other = some slot ↔
      slots.slot? other = some slot ∨ other = name ∧ slot = given := by
  rw [slot?_append]
  by_cases heq : other = name
  · simp [heq, h, eq_comm]
  · simp [heq]

/-- Where the cursor stops is the least free slot. -/
theorem Frontier.isLeast_searchSlot {taken : List Int} {met : List String} {next : Int}
    {slots : Slots} (hf : Frontier taken met next slots) :
    IsLeast (freeFor taken met slots) (searchSlot taken taken.length next) := by
  have hle := le_searchSlot taken taken.length next
  have hfree := searchSlot_not_mem taken next
  refine ⟨⟨?_, hfree, ?_⟩, ?_⟩
  · have := hf.nonneg
    omega
  · intro name _ hname
    rcases hf.below name _ hname with hmem | hlt
    · exact hfree hmem
    · omega
  · rintro slot ⟨hnonneg, hnot, hmet⟩
    by_contra hlt
    by_cases hnext : slot < next
    · rcases hf.full slot hnonneg hnext with hmem | ⟨name, hname, heq⟩
      · exact hnot hmem
      · exact hmet name hname heq
    · exact hnot (mem_of_lt_searchSlot (Int.not_lt.mp hnext) (Int.not_le.mp hlt))

/-- A name that has a slot is only noted as met. -/
theorem Frontier.keep {taken : List Int} {met : List String} {next : Int} {slots : Slots}
    {name : String} (hf : Frontier taken met next slots) (h : (slots.slot? name).isSome) :
    Frontier taken (met ++ [name]) next slots where
  nonneg := hf.nonneg
  below := hf.below
  full slot h0 hlt := by
    apply (hf.full slot h0 hlt).imp_right
    rintro ⟨other, hother, heq⟩
    exact ⟨other, List.mem_append_left _ hother, heq⟩
  injective := hf.injective
  assigned other hother := by
    rcases List.mem_append.mp hother with hold | hnew
    · exact hf.assigned other hold
    · rw [List.mem_singleton.mp hnew]
      exact Option.isSome_iff_exists.mp h

/-- A name without a slot gets the one that the cursor finds. -/
theorem Frontier.assign {taken : List Int} {met : List String} {next : Int} {slots : Slots}
    {name : String} (hf : Frontier taken met next slots) (h : slots.slot? name = none) :
    Frontier taken (met ++ [name]) (searchSlot taken taken.length next + 1)
      (slots ++ [(name, searchSlot taken taken.length next)]) := by
  have hle := le_searchSlot taken taken.length next
  have hfree := searchSlot_not_mem taken next
  have hnew : ∀ other, slots.slot? other ≠ some (searchSlot taken taken.length next) := by
    intro other hother
    rcases hf.below other _ hother with hmem | hlt
    · exact hfree hmem
    · omega
  have hlookup := fun other slot =>
    slot?_append_eq_some_iff h (searchSlot taken taken.length next) other slot
  refine ⟨by have := hf.nonneg; omega, ?_, ?_, ?_, ?_⟩
  · intro other slot hslot
    rcases (hlookup other slot).mp hslot with hold | ⟨_, rfl⟩
    · exact (hf.below other slot hold).imp_right fun _ => by omega
    · exact Or.inr (by omega)
  · intro slot h0 hlt
    by_cases hnext : slot < next
    · apply (hf.full slot h0 hnext).imp_right
      rintro ⟨other, hother, heq⟩
      exact ⟨other, List.mem_append_left _ hother, (hlookup other slot).mpr (Or.inl heq)⟩
    · by_cases heq : slot = searchSlot taken taken.length next
      · exact Or.inr ⟨name, by simp, (hlookup name slot).mpr (Or.inr ⟨rfl, heq⟩)⟩
      · have hlt' : slot < searchSlot taken taken.length next := by omega
        exact Or.inl (mem_of_lt_searchSlot (Int.not_lt.mp hnext) hlt')
  · intro a b slot ha hb
    rcases (hlookup a slot).mp ha with ha | ⟨ha, hslot⟩ <;>
      rcases (hlookup b slot).mp hb with hb | ⟨hb, hslot'⟩
    · exact hf.injective a b slot ha hb
    · exact absurd (hslot' ▸ ha) (hnew a)
    · exact absurd (hslot ▸ hb) (hnew b)
    · rw [ha, hb]
  · intro other hother
    rcases List.mem_append.mp hother with hold | hnew'
    · obtain ⟨slot, hslot⟩ := hf.assigned other hold
      exact ⟨slot, (hlookup other slot).mpr (Or.inl hslot)⟩
    · exact ⟨_, (hlookup other _).mpr (Or.inr ⟨List.mem_singleton.mp hnew', rfl⟩)⟩

/-- A slot that is given stays given. -/
theorem slot?_fill {taken : List Int} {next : Int} {slots : Slots} {names : List String}
    {name : String} {slot : Int} (h : slots.slot? name = some slot) :
    (fill taken next slots names).slot? name = some slot := by
  induction names generalizing next slots with
  | nil => exact h
  | cons other rest ih =>
    unfold fill
    split
    · exact ih h
    · exact ih (by rw [slot?_append, h, Option.some_or])

/-- The walk ends in a state where all names have been met. -/
theorem Frontier.fill {taken : List Int} {met : List String} {next : Int} {slots : Slots}
    (hf : Frontier taken met next slots) (names : List String) :
    ∃ next', Frontier taken (met ++ names) next' (fill taken next slots names) := by
  induction names generalizing met next slots with
  | nil => exact ⟨next, by simpa [Program.fill] using hf⟩
  | cons name rest ih =>
    rw [Program.fill]
    split
    · rename_i hsome
      simpa using ih (hf.keep hsome)
    · rename_i hnone
      simpa using ih (hf.assign (by simpa using hnone))

/-- A name that is met for the first time and has no slot gets the least free one. -/
theorem Frontier.isLeast_fill {taken : List Int} {met before : List String} {name : String}
    {next : Int} {slots : Slots} (hf : Frontier taken met next slots) (after : List String)
    (hnone : slots.slot? name = none) (hnew : name ∉ before) :
    ∃ slot, (Program.fill taken next slots (before ++ name :: after)).slot? name = some slot ∧
      IsLeast (freeFor taken (met ++ before)
        (Program.fill taken next slots (before ++ name :: after))) slot := by
  induction before generalizing met next slots with
  | nil =>
    rw [List.nil_append, Program.fill, hnone]
    refine ⟨_, slot?_fill (by rw [slot?_append, hnone, Option.none_or, if_pos rfl]), ?_⟩
    -- The names met before keep their slots, so the same slots are free for `name` at the end.
    have heq : ∀ slots', (∀ other ∈ met, slots'.slot? other = slots.slot? other) →
        freeFor taken (met ++ []) slots' = freeFor taken met slots := by
      intro slots' hslots
      ext slot
      simp only [freeFor, List.append_nil, Set.mem_ofPred_eq, and_congr_right_iff]
      exact fun _ _ => forall₂_congr fun other hother => by rw [hslots other hother]
    simp only [Option.isSome_none, Bool.false_eq_true, if_false]
    rw [heq _ ?_]
    · exact hf.isLeast_searchSlot
    · intro other hother
      obtain ⟨k, hk⟩ := hf.assigned other hother
      rw [hk, slot?_fill (by rw [slot?_append, hk, Option.some_or])]
  | cons other rest ih =>
    have hne : name ≠ other := fun h => hnew (by simp [h])
    have hrest : name ∉ rest := fun h => hnew (by simp [h])
    rw [List.cons_append, Program.fill]
    split
    · rename_i hsome
      simpa using ih (hf.keep hsome) hnone hrest
    · rename_i hother
      have hnone' : Slots.slot? (slots ++ [(other, searchSlot taken taken.length next)]) name =
          none := by
        rw [slot?_append, hnone, Option.none_or, if_neg hne]
      simpa using ih (hf.assign (by simpa using hother)) hnone' hrest

end AnnotatedShader.Program
