import AnnotatedShader.Position
import AnnotatedShader.Proofs.Slot.Allocation
import Mathlib

set_option autoImplicit false

/-!
# Which slots requests get

`Contested` are the slots that two pinned requests hold, and `Allotment` says which slots requests
get if there are none: a pinned request those that it is pinned to, any other one the first room
behind the one that is declared before it.  Neither mentions tables or a search, so together they
say what an allocation is without the way in which it is made.

Requests that are not pinned are placed one behind the other, each from where the one before it ends
(`behind`), in the order of declarations.  A list of requests is split at one of them to tell its
room by those in front of it (`fitted_split`).  The least contested slot is what is reported, with
all requests that hold it (`isLeast_contested`).

Requests for single slots get the numbers that nobody pins, one after the other (`slot_eq_nth`): the
walk upward leaves no free number out then.
-/

namespace AnnotatedShader.SlotRequest

variable {Place : Type}

/-- Whether a request is pinned to a range with a slot in it. -/
def pins (r : SlotRequest Place) (slot : Int) : Bool :=
  r.order.any fun start => start ≤ slot && slot < start + r.width

/-- The slots that two requests are pinned to. -/
def Contested (rs : List (SlotRequest Place)) : Set Int :=
  {slot | ∃ r ∈ rs, ∃ s ∈ rs, r.name ≠ s.name ∧ r.pins slot = true ∧ s.pins slot = true}

/-- No request is pinned to one of the slots of a range. -/
def Clear (rs : List (SlotRequest Place)) (start width : Int) : Prop :=
  ∀ slot, start ≤ slot → slot < start + width → ∀ s ∈ rs, s.pins slot = false

/-- The request `s` is the last one that is declared before `r`, of those that are not pinned. -/
structure Precedes (rs : List (SlotRequest Place)) (s r : SlotRequest Place) : Prop where
  mem : s ∈ rs
  unpinned : s.order = none
  before : s.index < r.index
  last : ∀ t ∈ rs, t.order = none → t.index < r.index → t.index ≤ s.index

/-- The first slots of requests: each pinned one has its own, no two ranges meet, and the others
have the least starts behind each other that keep them off all pinned ranges. -/
structure Allotment (rs : List (SlotRequest Place)) (slot : String → Int) : Prop where
  pinned : ∀ r ∈ rs, ∀ start, r.order = some start → slot r.name = start
  apart : rs.Pairwise fun r s =>
    slot r.name + r.width ≤ slot s.name ∨ slot s.name + s.width ≤ slot r.name
  least : ∀ r ∈ rs, r.order = none →
    IsLeast {start | 0 ≤ start ∧ (∀ s, Precedes rs s r → slot s.name + s.width ≤ start) ∧
      Clear rs start r.width} (slot r.name)

/-- A natural number that no request is pinned to. -/
def Unclaimed (rs : List (SlotRequest Place)) (n : Nat) : Prop := ∀ s ∈ rs, s.order ≠ some (n : Int)

instance (rs : List (SlotRequest Place)) : DecidablePred (Unclaimed rs) :=
  fun n => inferInstanceAs (Decidable (∀ s ∈ rs, s.order ≠ some (n : Int)))

theorem pins_eq_true_iff {r : SlotRequest Place} {slot : Int} :
    r.pins slot = true ↔ ∃ start, r.order = some start ∧ start ≤ slot ∧ slot < start + r.width := by
  simp [pins, Option.any_eq_true]

/-! ## Contested slots -/

/-- The claims that hold a slot are those of the requests that are pinned to it. -/
theorem map_owners (rs : List (SlotRequest Place)) (slot : Int) :
    (owners (claims rs) slot).map (fun c => (c.name, c.place)) =
      (rs.filter (·.pins slot)).map fun r => (r.name, r.place) := by
  induction rs with
  | nil => rfl
  | cons r rest ih =>
    unfold owners claims at ih ⊢
    cases horder : r.order with
    | none =>
      have hclaim : r.claim? = none := by simp [claim?, horder]
      have hpins : r.pins slot = false := by simp [pins, horder]
      rw [List.filterMap_cons_none hclaim, List.filter_cons_of_neg (by simp [hpins]), ih]
    | some start =>
      have hclaim : r.claim? = some ⟨r.name, start, r.width, r.place⟩ := by simp [claim?, horder]
      have hcovers :
          (⟨r.name, start, r.width, r.place⟩ : Claim Place).covers slot = r.pins slot := by
        simp [Claim.covers, pins, horder]
      rw [List.filterMap_cons_some hclaim, List.filter_cons, List.filter_cons, hcovers]
      split
      · rw [List.map_cons, List.map_cons, ih]
      · exact ih

/-- A slot has two owners exactly when two requests are pinned to it. -/
theorem one_lt_owners_iff {rs : List (SlotRequest Place)} (hnames : (rs.map name).Nodup)
    {slot : Int} : 1 < (owners (claims rs) slot).length ↔ slot ∈ Contested rs := by
  have hlength : (owners (claims rs) slot).length = (rs.filter (·.pins slot)).length := by
    simpa using congrArg List.length (map_owners rs slot)
  have hdistinct : ((rs.filter (·.pins slot)).map name).Nodup :=
    hnames.sublist ((List.filter_sublist).map name)
  have hmem : ∀ r, r ∈ rs.filter (·.pins slot) ↔ r ∈ rs ∧ r.pins slot = true := fun r =>
    List.mem_filter
  rw [hlength]
  generalize rs.filter (·.pins slot) = pinned at hdistinct hmem
  constructor
  · intro h
    obtain ⟨r, s, rest, rfl⟩ : ∃ r s rest, pinned = r :: s :: rest := by
      rcases pinned with _ | ⟨r, _ | ⟨s, rest⟩⟩
      · simp at h
      · simp at h
      · exact ⟨r, s, rest, rfl⟩
    obtain ⟨hr, hrpins⟩ := (hmem r).mp (by simp)
    obtain ⟨hs, hspins⟩ := (hmem s).mp (by simp)
    refine ⟨r, hr, s, hs, ?_, hrpins, hspins⟩
    simp only [List.map_cons, List.nodup_cons, List.mem_cons, not_or] at hdistinct
    exact hdistinct.1.1
  · rintro ⟨r, hr, s, hs, hne, hrpins, hspins⟩
    have hrmem := (hmem r).mpr ⟨hr, hrpins⟩
    have hsmem := (hmem s).mpr ⟨hs, hspins⟩
    by_contra hlen
    obtain ⟨only, rfl⟩ := List.length_eq_one_iff.mp
      (Nat.le_antisymm (Nat.not_lt.mp hlen) (List.length_pos_of_mem hrmem))
    rw [List.mem_singleton] at hrmem hsmem
    exact hne (hrmem ▸ hsmem ▸ rfl)

/-- Below a contested slot one of the starts is contested: the later one of the two pins. -/
theorem exists_start_le {rs : List (SlotRequest Place)} {slot : Int} (h : slot ∈ Contested rs) :
    ∃ start ∈ (claims rs).map Claim.start, start ∈ Contested rs ∧ start ≤ slot := by
  obtain ⟨r, hr, s, hs, hne, hrpins, hspins⟩ := h
  obtain ⟨a, hra, ha, ha'⟩ := pins_eq_true_iff.mp hrpins
  obtain ⟨b, hsb, hb, hb'⟩ := pins_eq_true_iff.mp hspins
  have hstart : ∀ t ∈ rs, ∀ k, t.order = some k → k ∈ (claims rs).map Claim.start := by
    intro t ht k hk
    refine List.mem_map.mpr ⟨⟨t.name, k, t.width, t.place⟩, List.mem_filterMap.mpr ⟨t, ht, ?_⟩, rfl⟩
    simp [claim?, hk]
  have hcontested : max a b ∈ Contested rs :=
    ⟨r, hr, s, hs, hne, pins_eq_true_iff.mpr ⟨a, hra, by omega, by omega⟩,
      pins_eq_true_iff.mpr ⟨b, hsb, by omega, by omega⟩⟩
  rcases max_choice a b with hmax | hmax
  · exact ⟨a, hstart r hr a hra, hmax ▸ hcontested, ha⟩
  · exact ⟨b, hstart s hs b hsb, hmax ▸ hcontested, hb⟩

theorem mem_filter_starts_iff {rs : List (SlotRequest Place)} (hnames : (rs.map name).Nodup)
    {slot : Int} :
    slot ∈ ((claims rs).map Claim.start).filter (fun slot => 1 < (owners (claims rs) slot).length) ↔
      slot ∈ (claims rs).map Claim.start ∧ slot ∈ Contested rs := by
  rw [List.mem_filter, decide_eq_true_eq, one_lt_owners_iff hnames]

/-- No start is contested only if no slot is. -/
theorem contested?_eq_none_iff {rs : List (SlotRequest Place)} (hnames : (rs.map name).Nodup) :
    contested? (claims rs) = none ↔ ¬ (Contested rs).Nonempty := by
  rw [contested?, List.min?_eq_none_iff, List.eq_nil_iff_forall_not_mem]
  simp only [mem_filter_starts_iff hnames]
  constructor
  · rintro h ⟨slot, hslot⟩
    obtain ⟨start, hstart, hcontested, _⟩ := exists_start_le hslot
    exact h start ⟨hstart, hcontested⟩
  · rintro h start ⟨_, hcontested⟩
    exact h ⟨start, hcontested⟩

/-- The contested slot that is found is the least one. -/
theorem isLeast_contested {rs : List (SlotRequest Place)} (hnames : (rs.map name).Nodup)
    {slot : Int} (h : contested? (claims rs) = some slot) : IsLeast (Contested rs) slot := by
  rw [contested?, List.min?_eq_some_iff] at h
  obtain ⟨hmem, hle⟩ := h
  refine ⟨((mem_filter_starts_iff hnames).mp hmem).2, ?_⟩
  intro other hother
  obtain ⟨start, hstart, hcontested, hbelow⟩ := exists_start_le hother
  exact Int.le_trans (hle start ((mem_filter_starts_iff hnames).mpr ⟨hstart, hcontested⟩)) hbelow

/-- Requests fail exactly with the claims to the contested slot that is found. -/
theorem allocate_eq_error_iff {rs : List (SlotRequest Place)} {c : Conflict Place} :
    allocate rs = .error c ↔
      ∃ slot, contested? (claims rs) = some slot ∧ c = ⟨slot, owners (claims rs) slot⟩ := by
  simp only [allocate]
  split
  · rename_i slot hslot
    simp [hslot, eq_comm]
  · rename_i hnone
    simp [hnone]

/-! ## The first room -/

/-- The search passes over starts only that are not free. -/
theorem searchFree_le {cs : List (Claim Place)} {width : Int} {fuel : Nat} {start k : Int}
    (hle : start ≤ k) (hfree : isFree cs width k = true) : searchFree cs width fuel start ≤ k := by
  induction fuel generalizing start with
  | zero => exact hle
  | succ fuel ih =>
    unfold searchFree
    split
    · exact hle
    · rename_i hstart
      refine ih (Int.lt_iff_add_one_le.mp (Int.lt_iff_le_and_ne.mpr ⟨hle, ?_⟩))
      rintro rfl
      exact hstart hfree

/-- A start is free when its range is clear of pins. -/
theorem isFree_eq_true_iff {rs : List (SlotRequest Place)} (hwidths : ∀ r ∈ rs, 0 < r.width)
    {width start : Int} (hwidth : 0 < width) :
    isFree (claims rs) width start = true ↔ Clear rs start width := by
  simp only [isFree, Bool.not_eq_true', List.any_eq_false, claims, List.mem_filterMap, claim?,
    Option.map_eq_some_iff]
  constructor
  · intro h slot hle hlt s hs
    rw [← Bool.not_eq_true, pins_eq_true_iff]
    rintro ⟨k, hk, hkle, hklt⟩
    have hmeets := h _ ⟨s, hs, k, hk, rfl⟩
    simp only [Claim.meets, Bool.and_eq_true, decide_eq_true_eq, not_and, Int.not_lt] at hmeets
    have := hmeets ⟨⟨hwidths s hs, hwidth⟩, by omega⟩
    omega
  · rintro h _ ⟨s, hs, k, hk, rfl⟩ hmeets
    have hsw := hwidths s hs
    simp only [Claim.meets, Bool.and_eq_true, decide_eq_true_eq] at hmeets
    -- the later one of the two starts is in both ranges
    have hclear := h (max start k) (by omega) (by omega) s hs
    rw [← Bool.not_eq_true, pins_eq_true_iff] at hclear
    exact hclear ⟨k, hk, by omega, by omega⟩

/-- What is found is the least start whose range is clear. -/
theorem isLeast_firstFree {rs : List (SlotRequest Place)} (hwidths : ∀ r ∈ rs, 0 < r.width)
    {width : Int} (hwidth : 0 < width) (next : Int) :
    IsLeast {start | next ≤ start ∧ Clear rs start width} (firstFree (claims rs) width next) := by
  obtain ⟨hle, hfree⟩ := firstFree_spec (claims rs) width next
  refine ⟨⟨hle, (isFree_eq_true_iff hwidths hwidth).mp hfree⟩, ?_⟩
  rintro start ⟨hnext, hclear⟩
  exact searchFree_le hnext ((isFree_eq_true_iff hwidths hwidth).mpr hclear)

/-! ## One behind the other -/

/-- The first slot behind claims that have been fitted from a slot on. -/
def behind (next : Int) (fits : List (Claim Place)) : Int :=
  (fits.getLast?.map Claim.ending).getD next

theorem behind_cons (next : Int) (c : Claim Place) (fits : List (Claim Place)) :
    behind next (c :: fits) = behind c.ending fits := by
  cases h : fits.getLast? <;> simp [behind, List.getLast?_cons, h]

theorem behind_snoc (next : Int) (c : Claim Place) (fits : List (Claim Place)) :
    behind next (fits ++ [c]) = c.ending := by
  simp [behind]

theorem fitted_append (cs : List (Claim Place)) (next : Int) (us vs : List (SlotRequest Place)) :
    fitted cs next (us ++ vs) =
      fitted cs next us ++ fitted cs (behind next (fitted cs next us)) vs := by
  induction us generalizing next with
  | nil => rfl
  | cons r rest ih =>
    rw [List.cons_append, fitted, fitted, ih, behind_cons, List.cons_append]
    rfl

theorem le_behind (cs : List (Claim Place)) (next : Int) {us : List (SlotRequest Place)}
    (hus : ∀ r ∈ us, 0 < r.width) : next ≤ behind next (fitted cs next us) := by
  induction us generalizing next with
  | nil => exact Int.le_refl next
  | cons r rest ih =>
    obtain ⟨hr, hrest⟩ := List.forall_mem_cons.mp hus
    have hle := (firstFree_spec cs r.width next).1
    have hbehind := ih (firstFree cs r.width next + r.width) hrest
    rw [fitted, behind_cons]
    exact Int.le_trans (Int.le_trans hle (Int.le_add_of_nonneg_right (Int.le_of_lt hr))) hbehind

/-- The claim of a request comes behind the claims of those in front of it. -/
theorem fitted_split (cs : List (Claim Place)) (next : Int)
    (before after : List (SlotRequest Place))
    (r : SlotRequest Place) :
    r.claimAt (firstFree cs r.width (behind next (fitted cs next before))) ∈
      fitted cs next (before ++ r :: after) := by
  rw [fitted_append, fitted]
  exact List.mem_append_right _ List.mem_cons_self

/-- Requests that are not pinned stand in the order of their declaration. -/
theorem pairwise_unpinned {rs : List (SlotRequest Place)} (hindices : (rs.map index).Nodup) :
    (unpinned rs).Pairwise fun a b => a.index < b.index := by
  have hsorted : (unpinned rs).Pairwise fun a b => a.index ≤ b.index := by
    have h : (unpinned rs).Pairwise fun a b => decide (a.index ≤ b.index) = true :=
      List.pairwise_mergeSort
        (fun a b c hab hbc => by simp only [decide_eq_true_eq] at hab hbc ⊢; omega)
        (fun a b => by simp only [Bool.or_eq_true, decide_eq_true_eq]; omega) _
    exact h.imp fun hle => by simpa using hle
  have hdistinct : (unpinned rs).Pairwise fun a b => a.index ≠ b.index := by
    have hfilter := hindices.sublist
      ((List.filter_sublist (p := fun r : SlotRequest Place => r.order.isNone)).map index)
    have hperm := (List.mergeSort_perm (rs.filter fun r => r.order.isNone)
      fun a b => decide (a.index ≤ b.index)).map index
    exact List.pairwise_map.mp (hperm.nodup_iff.mpr hfilter)
  exact (hsorted.and hdistinct).imp fun h => Int.lt_iff_le_and_ne.mpr h

theorem mem_unpinned_iff {rs : List (SlotRequest Place)} {r : SlotRequest Place} :
    r ∈ unpinned rs ↔ r ∈ rs ∧ r.order = none := by
  simp [unpinned, List.mem_mergeSort, List.mem_filter]

/-! ## Single slots -/

/-- A single slot is clear when nobody is pinned to it. -/
theorem clear_single_iff {rs : List (SlotRequest Place)} (hone : ∀ r ∈ rs, r.width = 1) (k : Int) :
    Clear rs k 1 ↔ ∀ s ∈ rs, s.order ≠ some k := by
  have hpins : ∀ s ∈ rs, s.pins k = false ↔ s.order ≠ some k := by
    intro s hs
    rw [← Bool.not_eq_true, pins_eq_true_iff, hone s hs, ne_eq, not_iff_not]
    constructor
    · rintro ⟨start, hstart, hle, hlt⟩
      rw [hstart, show start = k by omega]
    · intro hstart
      exact ⟨k, hstart, by omega, by omega⟩
  constructor
  · intro h s hs
    exact (hpins s hs).mp (h k (by omega) (by omega) s hs)
  · intro h slot hle hlt s hs
    obtain rfl : slot = k := by omega
    exact (hpins s hs).mpr (h s hs)

theorem clear_one_iff {rs : List (SlotRequest Place)} (hone : ∀ r ∈ rs, r.width = 1) (n : Nat) :
    Clear rs n 1 ↔ Unclaimed rs n := clear_single_iff hone n

/-- The least free slot from a natural number on is the next one that nobody is pinned to, and one
more of these is below the slot behind it. -/
theorem firstFree_one {rs : List (SlotRequest Place)} (hone : ∀ r ∈ rs, r.width = 1) (next : Nat) :
    ∃ n : Nat, firstFree (claims rs) 1 next = n ∧ n = Nat.nth (Unclaimed rs)
      (Nat.count (Unclaimed rs) next) ∧
      Nat.count (Unclaimed rs) (n + 1) = Nat.count (Unclaimed rs) next + 1 := by
  have hwidths : ∀ r ∈ rs, 0 < r.width := fun r hr => by rw [hone r hr]; decide
  obtain ⟨⟨hle, hclear⟩, hleast⟩ := isLeast_firstFree hwidths Int.one_pos next
  obtain ⟨n, hn⟩ := Int.eq_ofNat_of_zero_le (Int.le_trans (Int.natCast_nonneg next) hle)
  rw [hn] at hle hclear hleast
  have hnext : next ≤ n := Int.ofNat_le.mp hle
  have hfree : Unclaimed rs n := (clear_one_iff hone n).mp hclear
  have hcount : Nat.count (Unclaimed rs) n = Nat.count (Unclaimed rs) next := by
    obtain ⟨d, rfl⟩ := Nat.exists_eq_add_of_le hnext
    rw [Nat.count_add, Nat.add_eq_left, Nat.count_iff_forall_not]
    intro k hk hunclaimed
    have := hleast ⟨by omega, (clear_one_iff hone (next + k)).mpr hunclaimed⟩
    omega
  refine ⟨n, hn, ?_, ?_⟩
  · rw [← hcount, Nat.nth_count hfree]
  · rw [Nat.count_succ_eq_succ_count hfree, hcount]

/-- Behind requests for single slots as many free numbers are passed as there are requests. -/
theorem count_behind {rs : List (SlotRequest Place)} (hone : ∀ r ∈ rs, r.width = 1)
    {us : List (SlotRequest Place)} (hus : ∀ r ∈ us, r.width = 1) (next : Nat) :
    ∃ n : Nat, behind next (fitted (claims rs) next us) = n ∧
      Nat.count (Unclaimed rs) n = Nat.count (Unclaimed rs) next + us.length := by
  induction us generalizing next with
  | nil => exact ⟨next, rfl, rfl⟩
  | cons r rest ih =>
    obtain ⟨hr, hrest⟩ := List.forall_mem_cons.mp hus
    obtain ⟨n, hn, _, hcount⟩ := firstFree_one hone next
    obtain ⟨m, hm, hcount'⟩ := ih hrest (n + 1)
    refine ⟨m, ?_, ?_⟩
    · rw [fitted, behind_cons, hr, hn]
      simpa [claimAt, Claim.ending, hr] using hm
    · rw [hcount', hcount, List.length_cons]
      omega

/-! ## All requests -/

theorem exists_granted {rs : List (SlotRequest Place)} {r : SlotRequest Place} (hr : r ∈ rs) :
    ∃ c ∈ granted rs, c.name = r.name ∧ c.width = r.width := by
  obtain ⟨c, hc, heq⟩ := List.mem_map.mp ((granted_perm rs).mem_iff.mpr (List.mem_map_of_mem hr))
  exact ⟨c, hc, (Prod.mk.inj heq).1, (Prod.mk.inj heq).2⟩

/-- The slots that requests get are the starts of the claims that they come to. -/
theorem exists_slot {rs : List (SlotRequest Place)} {slots : Slots} (hnames : (rs.map name).Nodup)
    (hwidths : ∀ r ∈ rs, 0 < r.width) (h : allocate rs = .ok slots) : ∃ slot : String → Int,
      (∀ r ∈ rs, slots.slot? r.name = some (slot r.name)) ∧
        ∀ c ∈ granted rs, slot c.name = c.start := by
  obtain ⟨rfl, hdistinct, _⟩ := allocate_eq_ok hnames hwidths h
  have hkeys : (((granted rs).map fun c => (c.name, c.start)).map Prod.fst).Nodup := by
    simpa [Function.comp_def] using hdistinct
  have hslot : ∀ c ∈ granted rs,
      Slots.slot? ((granted rs).map fun c => (c.name, c.start)) c.name = some c.start :=
    fun c hc => (lookup_eq_some_iff_of_nodup hkeys).mpr (List.mem_map_of_mem hc)
  refine ⟨fun name => (Slots.slot? ((granted rs).map fun c => (c.name, c.start)) name).getD 0,
    fun r hr => ?_, fun c hc => by simp [hslot c hc]⟩
  obtain ⟨c, hc, hname, _⟩ := exists_granted hr
  simp only [← hname, hslot c hc, Option.getD_some]

section Granted

variable {rs : List (SlotRequest Place)} (hnames : (rs.map name).Nodup)
  (hindices : (rs.map index).Nodup) (hwidths : ∀ r ∈ rs, 0 < r.width) {slot : String → Int}
  (hgranted : ∀ c ∈ granted rs, slot c.name = c.start)

include hgranted

theorem slot_of_pinned {r : SlotRequest Place} (hr : r ∈ rs) {start : Int}
    (hstart : r.order = some start) : slot r.name = start := by
  refine hgranted ⟨r.name, start, r.width, r.place⟩ (List.mem_append_left _ ?_)
  exact List.mem_filterMap.mpr ⟨r, hr, by simp [claim?, hstart]⟩

/-- The slot of a request that is not pinned is found behind those in front of it. -/
theorem slot_of_split {before after : List (SlotRequest Place)} {r : SlotRequest Place}
    (hsplit : unpinned rs = before ++ r :: after) :
    slot r.name = firstFree (claims rs) r.width (behind 0 (fitted (claims rs) 0 before)) := by
  refine hgranted (r.claimAt _) (List.mem_append_right _ ?_)
  rw [hsplit]
  exact fitted_split ..

include hindices hwidths

/-- What is in front of a request that is not pinned ends where the one that precedes it does. -/
theorem behind_le_iff {before after : List (SlotRequest Place)} {r : SlotRequest Place}
    (hsplit : unpinned rs = before ++ r :: after) (start : Int) :
    behind 0 (fitted (claims rs) 0 before) ≤ start ↔
      0 ≤ start ∧ ∀ s, Precedes rs s r → slot s.name + s.width ≤ start := by
  have hnonneg : 0 ≤ behind 0 (fitted (claims rs) 0 before) :=
    le_behind _ _ fun t ht => hwidths t (mem_unpinned_iff.mp (hsplit ▸ List.mem_append_left _ ht)).1
  have hordered := pairwise_unpinned hindices
  rw [hsplit, List.pairwise_append, List.pairwise_cons] at hordered
  obtain ⟨hbefore, ⟨hafter, _⟩, hacross⟩ := hordered
  have hearlier : ∀ t ∈ rs, t.order = none → t.index < r.index → t ∈ before := by
    intro t ht hnone hlt
    have hmem := mem_unpinned_iff.mpr ⟨ht, hnone⟩
    rw [hsplit, List.mem_append, List.mem_cons] at hmem
    rcases hmem with hmem | rfl | hmem
    · exact hmem
    · omega
    · have := hafter t hmem
      omega
  rcases List.eq_nil_or_concat' before with rfl | ⟨front, s, rfl⟩
  · refine ⟨fun hle => ⟨hle, fun s hs => ?_⟩, fun h => h.1⟩
    simpa using hearlier s hs.mem hs.unpinned hs.before
  · have hs : s ∈ unpinned rs := by simp [hsplit]
    obtain ⟨hsmem, hsnone⟩ := mem_unpinned_iff.mp hs
    have hlt : s.index < r.index := hacross s (by simp) r List.mem_cons_self
    have hmax : ∀ t ∈ rs, t.order = none → t.index < r.index → t.index ≤ s.index := by
      intro t ht hnone htlt
      rcases List.mem_append.mp (hearlier t ht hnone htlt) with hfront | hlast
      · exact Int.le_of_lt ((List.pairwise_append.mp hbefore).2.2 t hfront s (by simp))
      · rw [List.mem_singleton.mp hlast]
    have hfront : unpinned rs = front ++ s :: r :: after := by simpa using hsplit
    have hslot := slot_of_split hgranted hfront
    have hbehind : behind 0 (fitted (claims rs) 0 (front ++ [s])) = slot s.name + s.width := by
      rw [fitted_append, fitted, fitted, behind_snoc, ← hslot]
      rfl
    rw [hbehind] at hnonneg ⊢
    constructor
    · intro hle
      refine ⟨Int.le_trans hnonneg hle, fun t ht => ?_⟩
      have hindex : t.index = s.index :=
        Int.le_antisymm (hmax t ht.mem ht.unpinned ht.before) (ht.last s hsmem hsnone hlt)
      rwa [List.inj_on_of_nodup_map hindices ht.mem hsmem hindex]
    · intro h
      exact h.2 s ⟨hsmem, hsnone, hlt, hmax⟩

include hnames

/-- The starts of the claims that requests come to are an allotment, if no two of the claims
meet. -/
theorem allotment_of_granted (hapart : (granted rs).Pairwise Claim.Apart) : Allotment rs slot where
  pinned r hr start hstart := slot_of_pinned hgranted hr hstart
  apart := by
    refine (List.pairwise_map.mp hnames).imp_of_mem fun {r s} hr hs hne => ?_
    obtain ⟨c, hc, hcname, hcwidth⟩ := exists_granted hr
    obtain ⟨d, hd, hdname, hdwidth⟩ := exists_granted hs
    have hcd : c ≠ d := fun heq => hne (by rw [← hcname, ← hdname, heq])
    have := hapart.forall hc hd hcd
    rwa [Claim.Apart, Claim.ending, Claim.ending, ← hgranted c hc, ← hgranted d hd, hcname, hdname,
      hcwidth, hdwidth] at this
  least r hr hnone := by
    obtain ⟨before, after, hsplit⟩ := List.append_of_mem (mem_unpinned_iff.mpr ⟨hr, hnone⟩)
    have hleast := isLeast_firstFree hwidths (hwidths r hr) (behind 0 (fitted (claims rs) 0 before))
    rw [← slot_of_split hgranted hsplit] at hleast
    simpa only [behind_le_iff hindices hwidths hgranted hsplit, and_assoc] using hleast

omit hnames hwidths

/-- Requests for single slots that are not pinned get the free numbers one after the other. -/
theorem slot_eq_nth (hone : ∀ r ∈ rs, r.width = 1) {r : SlotRequest Place} (hr : r ∈ rs)
    (hnone : r.order = none) :
    slot r.name = Nat.nth (Unclaimed rs)
      (rs.countP fun s => s.order.isNone && s.index < r.index) := by
  obtain ⟨before, after, hsplit⟩ := List.append_of_mem (mem_unpinned_iff.mpr ⟨hr, hnone⟩)
  have hordered := pairwise_unpinned hindices
  rw [hsplit, List.pairwise_append, List.pairwise_cons] at hordered
  obtain ⟨_, ⟨hafter, _⟩, hacross⟩ := hordered
  have hcountP : (rs.countP fun s => s.order.isNone && s.index < r.index) = before.length := by
    have hperm : (before ++ r :: after).Perm (rs.filter fun r => r.order.isNone) :=
      hsplit ▸ List.mergeSort_perm _ _
    have hfilter : (rs.countP fun s => s.order.isNone && s.index < r.index) =
        (rs.filter fun r => r.order.isNone).countP fun s => s.index < r.index := by
      rw [List.countP_filter]
      exact List.countP_congr fun s _ => by rw [Bool.and_comm]
    rw [hfilter, ← hperm.countP_eq, List.countP_append, List.countP_cons,
      List.countP_eq_length.mpr fun s hs => by simpa using hacross s hs r List.mem_cons_self,
      List.countP_eq_zero.mpr fun s hs => by simpa using Int.le_of_lt (hafter s hs)]
    simp
  have hbeforeOne : ∀ s ∈ before, s.width = 1 := fun s hs =>
    hone s (mem_unpinned_iff.mp (hsplit ▸ List.mem_append_left _ hs)).1
  obtain ⟨next, hnext, hcount⟩ := count_behind hone hbeforeOne 0
  obtain ⟨n, hn, hnth, _⟩ := firstFree_one hone next
  rw [Nat.count_zero, Nat.zero_add] at hcount
  rw [Int.natCast_zero] at hnext
  rw [slot_of_split hgranted hsplit, hone r hr, hnext, hn, hnth, hcount, hcountP]

end Granted

/-- Requests get their slots unless two of them are pinned to one slot.  Then the least such slot is
reported with the names of all requests that are pinned to it, at the second of these.  Otherwise
each request gets the slots that it is allotted; and if all ask for a single slot, those that are
not pinned get the numbers that nobody is pinned to, in the order of their declaration. -/
theorem allocate_spec {rs : List (SlotRequest Place)} (hnames : (rs.map name).Nodup)
    (hindices : (rs.map index).Nodup) (hwidths : ∀ r ∈ rs, 0 < r.width) :
    ((∃ c, allocate rs = .error c) ↔ (Contested rs).Nonempty) ∧
    (∀ c, allocate rs = .error c → IsLeast (Contested rs) c.slot ∧
      (∀ resource, c.clash resource =
        ⟨resource, c.slot, (rs.filter (·.pins c.slot)).map name, none⟩) ∧
      c.place? = (rs.filter (·.pins c.slot))[1]?.map place) ∧
    ∀ slots, allocate rs = .ok slots → ∃ slot : String → Int,
      (∀ r ∈ rs, slots.slot? r.name = some (slot r.name)) ∧ Allotment rs slot ∧
      ((∀ r ∈ rs, r.width = 1) → ∀ r ∈ rs, r.order = none →
        slot r.name = Nat.nth (Unclaimed rs)
          (rs.countP fun s => s.order.isNone && s.index < r.index)) := by
  refine ⟨?_, fun c h => ?_, fun slots h => ?_⟩
  · rw [← not_iff_not, ← contested?_eq_none_iff hnames, ← Option.not_isSome_iff_eq_none,
      Option.isSome_iff_exists, not_iff_not]
    simp only [allocate_eq_error_iff]
    constructor
    · rintro ⟨_, slot, h, _⟩
      exact ⟨slot, h⟩
    · rintro ⟨slot, h⟩
      exact ⟨_, slot, h, rfl⟩
  · obtain ⟨slot, hslot, rfl⟩ := allocate_eq_error_iff.mp h
    have howners := map_owners rs slot
    refine ⟨isLeast_contested hnames hslot, fun resource => ?_, ?_⟩
    · have hholders := congrArg (List.map Prod.fst) howners
      simp only [List.map_map, Function.comp_def] at hholders
      simp only [Conflict.clash, hholders]
    · have hholders := congrArg (fun l => (l[1]?).map Prod.snd) howners
      simpa [Function.comp_def, Conflict.place?] using hholders
  · obtain ⟨slot, hslot, hgranted⟩ := exists_slot hnames hwidths h
    exact ⟨slot, hslot, allotment_of_granted hnames hindices hwidths hgranted
        (allocate_eq_ok hnames hwidths h).2.2,
      fun hone r hr hnone => slot_eq_nth hindices hgranted hone hr hnone⟩

/-- Requests of which one is wide and one is pinned into the room that the wide one would have. -/
def lanes : List (SlotRequest Position) :=
  [⟨"tint", none, 2, ⟨5, 3⟩, 1⟩, ⟨"pose", none, 0, ⟨3, 3⟩, 4⟩, ⟨"uv", some 2, 1, ⟨4, 3⟩, 2⟩]

/-- The wide request passes over the pinned one, and the last one comes behind it; beside a second
pinned request the slot that both hold is reported. -/
theorem allocate_spec_lanes :
    (∃ slot : String → Int, slot "uv" = 2 ∧ slot "pose" = 4 ∧ slot "tint" = 8 ∧
      Allotment lanes slot) ∧
    ∃ c, allocate (lanes ++ [⟨"bone", some 3, 3, ⟨6, 3⟩, 1⟩]) = .error c ∧
      IsLeast (Contested (lanes ++ [⟨"bone", some 3, 3, ⟨6, 3⟩, 1⟩])) c.slot := by
  have hslots : allocate lanes = .ok [("uv", 2), ("pose", 4), ("tint", 8)] := by cbv
  have hnames : (lanes.map name).Nodup := by decide
  constructor
  · obtain ⟨slot, hslot, hallotment, _⟩ :=
      (allocate_spec hnames (by decide) (by decide)).2.2 _ hslots
    refine ⟨slot, ?_, ?_, ?_, hallotment⟩
    · exact Option.some.inj (hslot ⟨"uv", some 2, 1, ⟨4, 3⟩, 2⟩ (by decide)).symm
    · exact Option.some.inj (hslot ⟨"pose", none, 0, ⟨3, 3⟩, 4⟩ (by decide)).symm
    · exact Option.some.inj (hslot ⟨"tint", none, 2, ⟨5, 3⟩, 1⟩ (by decide)).symm
  · have hclash : allocate (lanes ++ [⟨"bone", some 3, 3, ⟨6, 3⟩, 1⟩]) =
        .error ⟨3, [⟨"uv", 2, 2, ⟨4, 3⟩⟩, ⟨"bone", 3, 1, ⟨6, 3⟩⟩]⟩ := by cbv
    exact ⟨_, hclash, ((allocate_spec (by decide) (by decide) (by decide)).2.1 _ hclash).1⟩

end AnnotatedShader.SlotRequest
