import AnnotatedShader.Proofs.Except
import AnnotatedShader.Slot.Program

set_option autoImplicit false

/-!
# Pins of a program

The pins that are gathered from the files of a program are the ones the files ask for, and they are
consistent: a name has one slot and a slot has one name.

`Records` is the invariant of the gathering, between the table of pins and what the files so far
have asked for (`asked`).  A clash is found when a pin meets an entry of the table with the same
name or the same slot, so pins can be gathered exactly if they are consistent with those before them
(`addStages_isOk_iff`).  Textures are never pinned, so this is about buffers, but nothing in it is.
-/

namespace AnnotatedShader.Program

/-- The pin that a resource asks for. -/
def pinOf? (s : Shared) : Option (String × Int) := s.order.map (s.name, ·)

/-- The pins that a file asks for. -/
def Stage.asked (stage : Stage) : List (String × Int) := stage.resources.filterMap pinOf?

/-- The pins that all files ask for. -/
def asked (stages : List Stage) : List (String × Int) := stages.flatMap Stage.asked

theorem mem_asked_iff {stages : List Stage} {name : String} {slot : Int} :
    (name, slot) ∈ asked stages ↔
      ∃ stage ∈ stages, ∃ s ∈ stage.resources, s.name = name ∧ s.order = some slot := by
  simp only [asked, Stage.asked, List.mem_flatMap, List.mem_filterMap, pinOf?,
    Option.map_eq_some_iff, Prod.mk.injEq]
  constructor
  · rintro ⟨stage, hstage, s, hs, _, horder, hname, rfl⟩
    exact ⟨stage, hstage, s, hs, hname, horder⟩
  · rintro ⟨stage, hstage, s, hs, hname, horder⟩
    exact ⟨stage, hstage, s, hs, slot, horder, hname, rfl⟩

/-- No name is pinned to two slots, and no slot is pinned by two names. -/
def Consistent (claims : List (String × Int)) : Prop :=
  ∀ p ∈ claims, ∀ q ∈ claims, p.1 = q.1 ↔ p.2 = q.2

/-- The pins of a list record exactly what has been asked for, without contradiction. -/
structure Records (pins : List Pin) (claims : List (String × Int)) : Prop where
  mem_iff : ∀ name slot, (∃ p ∈ pins, p.name = name ∧ p.slot = slot) ↔ (name, slot) ∈ claims
  consistent : Consistent claims

theorem records_nil : Records [] [] := ⟨by simp, by simp [Consistent]⟩

/-- A resource without a clash agrees with every pin that is recorded. -/
theorem agree_of_pinClash?_eq_none {resource file : String} {pins : List Pin} {s : Shared}
    {slot : Int} (h : pinClash? resource file pins s slot = none) {p : Pin} (hp : p ∈ pins) :
    p.name = s.name ↔ p.slot = slot := by
  unfold pinClash? at h
  split at h
  · simp at h
  · rename_i hname
    split at h
    · simp at h
    · rename_i hslot
      rw [List.find?_eq_none] at hname hslot
      have h1 := hname p hp
      have h2 := hslot p hp
      simp only [Bool.and_eq_true, beq_iff_eq, bne_iff_ne, ne_eq, not_and, Decidable.not_not]
        at h1 h2
      exact ⟨h1, h2⟩

/-- One more claim keeps claims consistent if it agrees with each of them. -/
theorem Consistent.snoc {claims : List (String × Int)} {name : String} {slot : Int}
    (hc : Consistent claims) (h : ∀ p ∈ claims, p.1 = name ↔ p.2 = slot) :
    Consistent (claims ++ [(name, slot)]) := by
  intro p hp q hq
  simp only [List.mem_append, List.mem_singleton] at hp hq
  rcases hp with hp | rfl <;> rcases hq with hq | rfl
  · exact hc p hp q hq
  · exact h p hp
  · rw [eq_comm, h q hq, eq_comm]
  · simp

/-- A step of the gathering: a resource adds the pin it asks for. -/
theorem addPin_records {resource file : String} {pins pins' : List Pin}
    {claims : List (String × Int)} {s : Shared} (hr : Records pins claims)
    (h : addPin resource file pins s = .ok pins') :
    Records pins' (claims ++ (pinOf? s).toList) := by
  unfold addPin at h
  split at h
  · rename_i horder
    have hpins : pins = pins' := Except.ok.inj h
    simpa [pinOf?, horder, ← hpins] using hr
  · rename_i slot horder
    split at h
    · simp at h
    · rename_i hclash
      have hagree : ∀ p ∈ pins, p.name = s.name ↔ p.slot = slot :=
        fun p hp => agree_of_pinClash?_eq_none hclash hp
      have hasked : pinOf? s = some (s.name, slot) := by simp [pinOf?, horder]
      rw [hasked, Option.toList_some]
      have hcons : Consistent (claims ++ [(s.name, slot)]) := by
        apply hr.consistent.snoc
        intro p hp
        obtain ⟨q, hq, hname, hslot⟩ := (hr.mem_iff p.1 p.2).mpr hp
        rw [← hname, ← hslot]
        exact hagree q hq
      split at h
      · rename_i hany
        obtain ⟨q, hq, hname⟩ : ∃ q ∈ pins, q.name = s.name := by simpa using hany
        have hslot : q.slot = slot := (hagree q hq).mp hname
        obtain rfl : pins = pins' := Except.ok.inj h
        refine ⟨?_, hcons⟩
        intro n k
        rw [hr.mem_iff, List.mem_append, List.mem_singleton]
        refine ⟨Or.inl, ?_⟩
        rintro (hmem | heq)
        · exact hmem
        · rw [heq, ← hname, ← hslot]
          exact (hr.mem_iff q.name q.slot).mp ⟨q, hq, rfl, rfl⟩
      · obtain rfl := Except.ok.inj h
        refine ⟨?_, hcons⟩
        intro n k
        rw [List.mem_append, ← hr.mem_iff]
        simp only [List.mem_append, List.mem_singleton, or_and_right, exists_or, exists_eq_left,
          Prod.mk.injEq, eq_comm]

/-- A run of the gathering over resources of one file. -/
theorem addPins_records {resource file : String} {ss : List Shared} {pins pins' : List Pin}
    {claims : List (String × Int)} (hr : Records pins claims)
    (h : ss.foldlM (addPin resource file) pins = .ok pins') :
    Records pins' (claims ++ ss.filterMap pinOf?) := by
  induction ss generalizing pins claims with
  | nil =>
    obtain rfl : pins = pins' := Except.ok.inj h
    simpa using hr
  | cons s rest ih =>
    rw [List.foldlM_cons, bind_eq_ok_iff] at h
    obtain ⟨mid, hstep, hrest⟩ := h
    have := ih (addPin_records hr hstep) hrest
    cases hs : pinOf? s <;> simpa [hs] using this

/-- A run of the gathering over files. -/
theorem addStages_records {resource : String} {stages : List Stage} {pins pins' : List Pin}
    {claims : List (String × Int)} (hr : Records pins claims)
    (h : stages.foldlM (addStage resource) pins = .ok pins') :
    Records pins' (claims ++ asked stages) := by
  induction stages generalizing pins claims with
  | nil =>
    obtain rfl : pins = pins' := Except.ok.inj h
    simpa [asked] using hr
  | cons stage rest ih =>
    rw [List.foldlM_cons, bind_eq_ok_iff] at h
    obtain ⟨mid, hstep, hrest⟩ := h
    have := ih (addPins_records hr hstep) hrest
    simpa [asked, Stage.asked] using this

/-- The pins of a program are those that its files ask for, and they are consistent. -/
theorem pinsOf_records {resource : String} {stages : List Stage} {pins : List Pin}
    (h : pinsOf resource stages = .ok pins) : Records pins (asked stages) := by
  simpa using addStages_records records_nil h

/-! ## Pins that can be gathered -/

theorem Consistent.mono {claims claims' : List (String × Int)} (h : Consistent claims')
    (hsub : claims ⊆ claims') : Consistent claims :=
  fun p hp q hq => h p (hsub hp) q (hsub hq)

/-- A resource that clashes disagrees with a pin that is recorded. -/
theorem exists_of_pinClash?_eq_some {resource file : String} {pins : List Pin} {s : Shared}
    {slot : Int} {d : Diagnostic} (h : pinClash? resource file pins s slot = some d) :
    ∃ p ∈ pins, ¬ (p.name = s.name ↔ p.slot = slot) := by
  unfold pinClash? at h
  split at h
  · rename_i p hp
    have hfound := List.find?_some hp
    simp only [Bool.and_eq_true, beq_iff_eq, bne_iff_ne, ne_eq] at hfound
    exact ⟨p, List.mem_of_find?_eq_some hp, fun hiff => hfound.2 (hiff.mp hfound.1)⟩
  · split at h
    · rename_i p hp
      have hfound := List.find?_some hp
      simp only [Bool.and_eq_true, beq_iff_eq, bne_iff_ne, ne_eq] at hfound
      exact ⟨p, List.mem_of_find?_eq_some hp, fun hiff => hfound.2 (hiff.mpr hfound.1)⟩
    · contradiction

/-- The pin of a resource is added unless it contradicts what has been asked for. -/
theorem addPin_of_consistent {resource file : String} {pins : List Pin}
    {claims : List (String × Int)} {s : Shared} (hr : Records pins claims)
    (hc : Consistent (claims ++ (pinOf? s).toList)) :
    ∃ pins', addPin resource file pins s = .ok pins' := by
  unfold addPin
  split
  · exact ⟨pins, rfl⟩
  · rename_i slot horder
    have hasked : pinOf? s = some (s.name, slot) := by simp [pinOf?, horder]
    rw [hasked, Option.toList_some] at hc
    split
    · rename_i d hclash
      obtain ⟨p, hp, hdisagree⟩ := exists_of_pinClash?_eq_some hclash
      have hmem := (hr.mem_iff p.name p.slot).mp ⟨p, hp, rfl, rfl⟩
      exact absurd (hc _ (List.mem_append_left _ hmem) (s.name, slot)
        (List.mem_append_right _ List.mem_cons_self)) hdisagree
    · split
      · exact ⟨pins, rfl⟩
      · exact ⟨_, rfl⟩

theorem addPins_of_consistent {resource file : String} {ss : List Shared} {pins : List Pin}
    {claims : List (String × Int)} (hr : Records pins claims)
    (hc : Consistent (claims ++ ss.filterMap pinOf?)) :
    ∃ pins', ss.foldlM (addPin resource file) pins = .ok pins' := by
  induction ss generalizing pins claims with
  | nil => exact ⟨pins, rfl⟩
  | cons s rest ih =>
    have hsplit : claims ++ (s :: rest).filterMap pinOf? =
        claims ++ (pinOf? s).toList ++ rest.filterMap pinOf? := by
      cases hs : pinOf? s <;> simp [hs]
    rw [hsplit] at hc
    obtain ⟨mid, hmid⟩ := @addPin_of_consistent resource file _ _ s hr
      (hc.mono (List.subset_append_left _ _))
    obtain ⟨pins', hpins'⟩ := ih (addPin_records hr hmid) hc
    refine ⟨pins', ?_⟩
    rw [List.foldlM_cons, bind_eq_ok_iff]
    exact ⟨mid, hmid, hpins'⟩

/-- The pins of a file are added exactly when they are consistent with what has been asked for. -/
theorem addStage_isOk_iff {resource : String} {stage : Stage} {pins : List Pin}
    {claims : List (String × Int)} (hr : Records pins claims) :
    (∃ pins', addStage resource pins stage = .ok pins') ↔ Consistent (claims ++ stage.asked) :=
  ⟨fun ⟨_, h⟩ => (addPins_records hr h).consistent, addPins_of_consistent hr⟩

/-- The pins of files are added exactly when they are consistent with what has been asked for. -/
theorem addStages_isOk_iff {resource : String} {stages : List Stage} {pins : List Pin}
    {claims : List (String × Int)} (hr : Records pins claims) :
    (∃ pins', stages.foldlM (addStage resource) pins = .ok pins') ↔
      Consistent (claims ++ asked stages) := by
  refine ⟨fun ⟨_, h⟩ => (addStages_records hr h).consistent, fun hc => ?_⟩
  induction stages generalizing pins claims with
  | nil => exact ⟨pins, rfl⟩
  | cons stage rest ih =>
    have hsplit : claims ++ asked (stage :: rest) = claims ++ stage.asked ++ asked rest := by
      rw [asked, List.flatMap_cons, List.append_assoc]
      rfl
    rw [hsplit] at hc
    obtain ⟨mid, hmid⟩ := (addStage_isOk_iff hr).mpr (hc.mono (List.subset_append_left _ _))
    obtain ⟨pins', hpins'⟩ := ih (addPins_records hr hmid) hc
    refine ⟨pins', ?_⟩
    rw [List.foldlM_cons, bind_eq_ok_iff]
    exact ⟨mid, hmid, hpins'⟩

end AnnotatedShader.Program
