import AnnotatedShader.Proofs.Lists
import AnnotatedShader.Slot.Allocation
import Mathlib.Data.List.Pairwise

set_option autoImplicit false

/-!
# Slots of one class

Every request of a class comes to a claim: a pinned one makes its claim itself, any other one gets
the claim that fits behind the ones before it.  When no slot is contested no two of these claims
meet, so requests of different names get different slots (`allocate_injective`).

A claim is a range of slots, since an input of a matrix takes several.  `Claim.Apart` says that two
ranges do not meet.  The search for a free start goes upward and ends, because all claims end
somewhere (`isFree_of_endOfClaims_le`), and what it finds is the first start from which the range is
free (`firstFree_spec`).  `granted` lists the claims of all requests in one list, which is the form
that the theorems on names and slots use.
-/

namespace AnnotatedShader

variable {Place : Type}

/-! ## Tables -/

/-- Names that are set once stand in the order in which they are set. -/
theorem Slots.foldl_set {slots entries : Slots} (h : ((slots ++ entries).map Prod.fst).Nodup) :
    entries.foldl (fun slots entry => slots.set entry.1 entry.2) slots = slots ++ entries := by
  induction entries generalizing slots with
  | nil => simp
  | cons entry rest ih =>
    have hfresh : (slots.any fun other => other.1 == entry.1) = false := by
      rw [List.map_append, List.nodup_append] at h
      rw [List.any_eq_false]
      intro other hother
      simpa using h.2.2 other.1 (List.mem_map_of_mem hother) entry.1 (by simp)
    have hset : slots.set entry.1 entry.2 = slots ++ [entry] := by
      rw [Slots.set, hfresh]
      rfl
    rw [List.foldl_cons, hset, ih (by simpa using h), List.append_assoc, List.singleton_append]

/-! ## Claims that do not meet -/

/-- Two claims have no slot in common. -/
def Claim.Apart (a b : Claim Place) : Prop := a.ending ≤ b.start ∨ b.ending ≤ a.start

instance : Std.Symm (@Claim.Apart Place) := ⟨fun _ _ => Or.symm⟩

/-- Claims that are not apart meet at the later of their starts. -/
theorem Claim.covers_max {a b : Claim Place} (ha : 0 < a.width) (hb : 0 < b.width)
    (h : ¬ a.Apart b) :
    a.covers (max a.start b.start) = true ∧ b.covers (max a.start b.start) = true := by
  simp only [Apart, ending, not_or, Int.not_le] at h
  simp only [covers, Bool.and_eq_true, decide_eq_true_eq]
  omega

namespace SlotRequest

/-- Pinned requests are apart unless a slot is contested. -/
theorem pairwise_apart {cs : List (Claim Place)} (hwidths : ∀ c ∈ cs, 0 < c.width)
    (h : contested? cs = none) : cs.Pairwise Claim.Apart := by
  have hsingle : ∀ c ∈ cs, (owners cs c.start).length ≤ 1 := by
    intro c hc
    rw [contested?, List.min?_eq_none_iff, List.filter_eq_nil_iff] at h
    simpa using h c.start (List.mem_map_of_mem hc)
  -- Two claims that meet both hold the later of their starts, so that start has two owners.
  rw [List.pairwise_iff_forall_sublist]
  intro a b hab
  by_contra hmeet
  have ha : a ∈ cs := hab.subset (by simp)
  have hb : b ∈ cs := hab.subset (by simp)
  obtain ⟨hca, hcb⟩ := Claim.covers_max (hwidths a ha) (hwidths b hb) hmeet
  have hboth : 2 ≤ (owners cs (max a.start b.start)).length := by
    have hsublist := (hab.filter (·.covers (max a.start b.start))).length_le
    simpa [owners, hca, hcb] using hsublist
  rcases Int.le_total a.start b.start with hle | hle
  · rw [Int.max_eq_right hle] at hboth
    have := hsingle b hb
    omega
  · rw [Int.max_eq_left hle] at hboth
    have := hsingle a ha
    omega

/-! ## The search for a free start -/

theorem le_foldl_max {l : List Int} (init : Int) :
    init ≤ l.foldl max init ∧ ∀ n ∈ l, n ≤ l.foldl max init := by
  induction l generalizing init with
  | nil => simp
  | cons n rest ih =>
    obtain ⟨hinit, hrest⟩ := ih (max init n)
    rw [List.foldl_cons]
    refine ⟨by omega, ?_⟩
    intro k hk
    rcases List.mem_cons.mp hk with rfl | hk
    · omega
    · exact hrest k hk

/-- Behind all claims every start is free. -/
theorem isFree_of_endOfClaims_le {cs : List (Claim Place)} {width start : Int}
    (h : endOfClaims cs ≤ start) : isFree cs width start = true := by
  simp only [isFree, Bool.not_eq_true', List.any_eq_false]
  intro c hc
  have hending := (le_foldl_max 0).2 c.ending (List.mem_map_of_mem hc)
  simp only [endOfClaims] at h
  simp only [Claim.ending] at hending
  simp only [Claim.meets, Bool.and_eq_true, decide_eq_true_eq, not_and, Int.not_lt]
  omega

/-- The search goes upward, and its fuel lasts until it finds a free start. -/
theorem searchFree_spec {cs : List (Claim Place)} {width : Int} {fuel : Nat} (start : Int)
    (h : endOfClaims cs ≤ start + fuel) :
    start ≤ searchFree cs width fuel start ∧
      isFree cs width (searchFree cs width fuel start) = true := by
  induction fuel generalizing start with
  | zero => exact ⟨Int.le_refl _, isFree_of_endOfClaims_le (by simpa [searchFree] using h)⟩
  | succ fuel ih =>
    unfold searchFree
    split
    · rename_i hfree
      exact ⟨Int.le_refl _, hfree⟩
    · obtain ⟨hle, hfree⟩ := ih (start + 1) (by omega)
      exact ⟨by omega, hfree⟩

theorem firstFree_spec (cs : List (Claim Place)) (width start : Int) :
    start ≤ firstFree cs width start ∧ isFree cs width (firstFree cs width start) = true :=
  searchFree_spec start (by omega)

/-- A request that finds a free start is apart from the claims. -/
theorem apart_of_isFree {cs : List (Claim Place)} {c d : Claim Place} (hc : c ∈ cs)
    (hcw : 0 < c.width) (hdw : 0 < d.width) (h : isFree cs d.width d.start = true) :
    c.Apart d := by
  simp only [isFree, Bool.not_eq_true', List.any_eq_false] at h
  have hmeets := h c hc
  simp only [Claim.meets, Bool.and_eq_true, decide_eq_true_eq, not_and, Int.not_lt] at hmeets
  simp only [Claim.Apart, Claim.ending]
  omega

/-! ## The claims of all requests -/

/-- The claim that a request gets at a start. -/
def claimAt (r : SlotRequest Place) (start : Int) : Claim Place := ⟨r.name, start, r.width, r.place⟩

/-- The claims that unpinned requests get one behind the other. -/
def fitted (cs : List (Claim Place)) : (next : Int) → List (SlotRequest Place) → List (Claim Place)
  | _, [] => []
  | next, r :: rest =>
    let start := firstFree cs r.width next
    r.claimAt start :: fitted cs (start + r.width) rest

/-- The claims that requests come to. -/
def granted (rs : List (SlotRequest Place)) : List (Claim Place) :=
  claims rs ++ fitted (claims rs) 0 (unpinned rs)

theorem placeUnpinned_eq (cs : List (Claim Place)) (next : Int) (rs : List (SlotRequest Place)) :
    placeUnpinned cs next rs = (fitted cs next rs).map fun c => (c.name, c.start) := by
  induction rs generalizing next with
  | nil => rfl
  | cons r rest ih => rw [placeUnpinned, fitted, List.map_cons, ih, claimAt]

/-- Each request has one claim, of its name and its width. -/
theorem granted_perm (rs : List (SlotRequest Place)) :
    ((granted rs).map fun c => (c.name, c.width)).Perm (rs.map fun r => (r.name, r.width)) := by
  have hfitted : ∀ (cs : List (Claim Place)) (next : Int) (us : List (SlotRequest Place)),
      (fitted cs next us).map (fun c => (c.name, c.width)) = us.map fun r => (r.name, r.width) := by
    intro cs next us
    induction us generalizing next with
    | nil => rfl
    | cons r rest ih => rw [fitted, List.map_cons, ih, List.map_cons, claimAt]
  have hclaims : (claims rs).map (fun c => (c.name, c.width)) =
      (rs.filter fun r => r.order.isSome).map fun r => (r.name, r.width) := by
    induction rs with
    | nil => rfl
    | cons r rest ih =>
      rw [claims] at ih ⊢
      cases horder : r.order <;> simp [claim?, horder, ih]
  rw [granted, List.map_append, hfitted, hclaims, ← List.map_append]
  refine List.Perm.map _ ?_
  have hunpinned : (unpinned rs).Perm (rs.filter fun r => !r.order.isSome) := by
    simpa [unpinned] using
      List.mergeSort_perm (rs.filter fun r => r.order.isNone) fun a b => decide (a.index ≤ b.index)
  exact (hunpinned.append_left _).trans (List.filter_append_perm _ rs)

/-- What unpinned requests get lies behind the cursor, apart from the claims and from each other. -/
theorem fitted_apart {cs : List (Claim Place)} (hcs : ∀ c ∈ cs, 0 < c.width) (next : Int)
    {rs : List (SlotRequest Place)} (hrs : ∀ r ∈ rs, 0 < r.width) :
    (∀ d ∈ fitted cs next rs, next ≤ d.start ∧ ∀ c ∈ cs, c.Apart d) ∧
      (fitted cs next rs).Pairwise Claim.Apart := by
  induction rs generalizing next with
  | nil => simp [fitted]
  | cons r rest ih =>
    have hwidth := hrs r List.mem_cons_self
    obtain ⟨hle, hfree⟩ := firstFree_spec cs r.width next
    obtain ⟨hlater, hpairwise⟩ := ih (firstFree cs r.width next + r.width)
      fun s hs => hrs s (List.mem_cons_of_mem _ hs)
    rw [fitted, List.pairwise_cons]
    refine ⟨?_, ?_, hpairwise⟩
    · intro d hd
      rcases List.mem_cons.mp hd with rfl | hd
      · exact ⟨hle, fun c hc => apart_of_isFree hc (hcs c hc) hwidth hfree⟩
      · obtain ⟨hstart, hapart⟩ := hlater d hd
        exact ⟨by omega, hapart⟩
    · intro d hd
      exact Or.inl (hlater d hd).1

/-- The slots of requests are the starts of claims that do not meet. -/
theorem allocate_eq_ok {rs : List (SlotRequest Place)} {slots : Slots}
    (hnames : (rs.map SlotRequest.name).Nodup) (hwidths : ∀ r ∈ rs, 0 < r.width)
    (h : allocate rs = .ok slots) :
    slots = (granted rs).map (fun c => (c.name, c.start)) ∧
      ((granted rs).map Claim.name).Nodup ∧ (granted rs).Pairwise Claim.Apart := by
  have hclaims : ∀ c ∈ claims rs, 0 < c.width := by
    intro c hc
    obtain ⟨r, hr, hclaim⟩ := List.mem_filterMap.mp hc
    obtain ⟨start, _, rfl⟩ := Option.map_eq_some_iff.mp hclaim
    exact hwidths r hr
  have hunpinned : ∀ r ∈ unpinned rs, 0 < r.width := fun r hr =>
    hwidths r (List.mem_filter.mp (List.mem_mergeSort.mp hr)).1
  have hgranted : ((granted rs).map Claim.name).Nodup := by
    have hperm := (granted_perm rs).map Prod.fst
    simp only [List.map_map] at hperm
    exact hperm.nodup_iff.mpr hnames
  unfold allocate at h
  simp only at h
  split at h
  · simp at h
  · rename_i hcontested
    obtain ⟨hfitted, hpairwise⟩ := fitted_apart hclaims 0 hunpinned
    refine ⟨?_, hgranted, List.pairwise_append.mpr
      ⟨pairwise_apart hclaims hcontested, hpairwise, fun c hc d hd => (hfitted d hd).2 c hc⟩⟩
    rw [placeUnpinned_eq, ← List.map_append, Slots.foldl_set] at h
    · exact (Except.ok.inj h).symm
    · simpa [granted, Function.comp_def] using hgranted

/-- No two requests get one slot. -/
theorem allocate_injective {rs : List (SlotRequest Place)} {slots : Slots}
    (hnames : (rs.map SlotRequest.name).Nodup) (hwidths : ∀ r ∈ rs, 0 < r.width)
    (h : allocate rs = .ok slots) {a b : String} {slot : Int} (ha : slots.slot? a = some slot)
    (hb : slots.slot? b = some slot) : a = b := by
  obtain ⟨rfl, hgranted, hapart⟩ := allocate_eq_ok hnames hwidths h
  have hclaim : ∀ {name}, Slots.slot? ((granted rs).map fun c => (c.name, c.start)) name =
      some slot → ∃ c ∈ granted rs, c.name = name ∧ c.start = slot ∧ 0 < c.width := by
    intro name hname
    rw [Slots.slot?, lookup_eq_some_iff_of_nodup (by simpa [Function.comp_def] using hgranted)]
      at hname
    obtain ⟨c, hc, heq⟩ := List.mem_map.mp hname
    obtain ⟨r, hr, hwidth⟩ := List.mem_map.mp ((granted_perm rs).subset (List.mem_map_of_mem hc))
    obtain ⟨hname, hstart⟩ := Prod.mk.inj heq
    exact ⟨c, hc, hname, hstart, (Prod.mk.inj hwidth).2 ▸ hwidths r hr⟩
  obtain ⟨c, hc, rfl, hcs, hcw⟩ := hclaim ha
  obtain ⟨d, hd, rfl, hds, hdw⟩ := hclaim hb
  by_contra hne
  have hcd : c ≠ d := fun heq => hne (heq ▸ rfl)
  have := hapart.forall hc hd hcd
  simp only [Claim.Apart, Claim.ending] at this
  omega

end SlotRequest

end AnnotatedShader
