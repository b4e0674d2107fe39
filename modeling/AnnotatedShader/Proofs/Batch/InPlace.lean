import AnnotatedShader.Proofs.Batch.Pass

set_option autoImplicit false

/-!
# Relocation in place

Relocation in place writes the slots of the buffers first and then those of the textures, in two
passes over models that a failure leaves as they are by then.  A pass that fails has not written
anything (`writeSlots_eq`), and the pass over the textures cannot fail, so relocation in place gives
the models of `Program.relocate` or leaves all models as they were (`relocateInPlace_eq`).

When it fails is said in terms of the pins alone: a name is pinned to two slots or a slot by two
names (`Disagree`).  The file that is blamed is the first whose pins disagree with those before it,
which is where the list of models is split (`split_of_addModels_eq_error`).  A chain over the models
and a failure is followed by one lemma on what `bind` leaves (`InPlace.run_bind`), so no proof opens
the two passes a second time.
-/

namespace AnnotatedShader.Batch

open Program

/-! ## What a failure leaves -/

/-- A chain goes on from the models that its first step leaves, unless that step fails. -/
theorem InPlace.run_bind {α β : Type} (x : InPlace α) (f : α → InPlace β) (ms : List Model) :
    (x >>= f).run.run ms =
      match x.run.run ms with
      | (.ok a, ms') => (f a).run.run ms'
      | (.error d, ms') => (.error d, ms') := by
  change StateT.run (ExceptT.bindCont f (x.run.run ms).1) (x.run.run ms).2 = _
  rcases x.run.run ms with ⟨_ | _, _⟩ <;> rfl

theorem InPlace.run_liftExcept {α : Type} (x : Except Diagnostic α) (ms : List Model) :
    (liftExcept x : InPlace α).run.run ms = (x, ms) := by
  cases x <;> rfl

/-- A pass that fails has not written anything. -/
theorem writeSlots_eq (resource : String) (stageOf : Model → Program.Stage)
    (write : Slots → Model → Model) (ms : List Model) :
    (writeSlots resource stageOf write).run.run ms =
      match slots resource (ms.map stageOf) with
      | .ok slots => (.ok (), ms.map (write slots))
      | .error d => (.error d, ms) := by
  have hget : (get : InPlace (List Model)).run.run ms = (.ok ms, ms) := rfl
  simp only [writeSlots, InPlace.run_bind, hget, InPlace.run_liftExcept]
  cases slots resource (ms.map stageOf) <;> rfl

/-- The pass over the buffers does not touch what the one over the textures reads. -/
theorem map_texturesOf_writeBuffers (slots : Slots) (ms : List Model) :
    (ms.map (writeBuffers slots)).map texturesOf = ms.map texturesOf := by
  rw [List.map_map]
  rfl

theorem slots_texturesOf (resource : String) (ms : List Model) :
    slots resource (ms.map texturesOf) =
      .ok (fill [] 0 [] ((ms.map texturesOf).flatMap Program.Stage.declared)) := by
  rw [slots, pinsOf_texturesOf]
  rfl

/-- Relocation in place writes the models of the relocated program, or none. -/
theorem relocateInPlace_eq (ms : List Model) :
    relocateInPlace.run.run ms =
      match Program.relocate ms with
      | .ok ms' => (.ok (), ms')
      | .error d => (.error d, ms) := by
  rw [relocateInPlace, InPlace.run_bind, writeSlots_eq, Program.relocate]
  cases slots ResourceClass.constantBuffer.text (ms.map buffersOf) with
  | error d => rfl
  | ok buffers =>
    simp only [writeSlots_eq, map_texturesOf_writeBuffers, slots_texturesOf]
    rw [List.map_map]
    rfl

/-! ## The file that is blamed -/

/-- A buffer of some model has the name and is pinned to the slot. -/
def Pinned (ms : List Model) (name : String) (slot : Int) : Prop :=
  ∃ m ∈ ms, ∃ b ∈ m.buffers, b.name = name ∧ b.order = some slot

/-- A name is pinned to two slots, or a slot is pinned by two names. -/
def Disagree (ms : List Model) : Prop :=
  (∃ name slot slot', Pinned ms name slot ∧ Pinned ms name slot' ∧ slot ≠ slot') ∨
    ∃ slot name name', Pinned ms name slot ∧ Pinned ms name' slot ∧ name ≠ name'

theorem mem_claims_iff {ms : List Model} {name : String} {slot : Int} :
    (name, slot) ∈ claims ms ↔ Pinned ms name slot := by
  simp [claims, mem_asked_iff, Pinned, buffersOf]

theorem disagree_iff {ms : List Model} : Disagree ms ↔ ¬ Consistent (claims ms) := by
  constructor
  · rintro (⟨name, slot, slot', h, h', hne⟩ | ⟨slot, name, name', h, h', hne⟩) hconsistent
    · exact hne ((hconsistent _ (mem_claims_iff.mpr h) _ (mem_claims_iff.mpr h')).mp rfl)
    · exact hne ((hconsistent _ (mem_claims_iff.mpr h) _ (mem_claims_iff.mpr h')).mpr rfl)
  · intro h
    simp only [Consistent, not_forall] at h
    obtain ⟨⟨name, slot⟩, hp, ⟨name', slot'⟩, hq, hdisagree⟩ := h
    rw [mem_claims_iff] at hp hq
    by_cases hname : name = name'
    · subst hname
      exact .inl ⟨name, slot, slot', hp, hq, fun hslot => hdisagree (by simp [hslot])⟩
    · have hslot : slot = slot' := by
        by_contra hslot
        exact hdisagree ⟨fun h => absurd h hname, fun h => absurd h hslot⟩
      subst hslot
      exact .inr ⟨slot, name, name', hp, hq, hname⟩

/-- A clash comes from the first model whose pins cannot be added to those before it. -/
theorem split_of_addModels_eq_error {pins : List Pin} {ms : List Model} {d : Diagnostic}
    (h : addModels pins ms = .error d) :
    ∃ before m after mid, ms = before ++ m :: after ∧ addModels pins before = .ok mid ∧
      addStage ResourceClass.constantBuffer.text mid (buffersOf m) = .error d := by
  induction ms generalizing pins with
  | nil => contradiction
  | cons m rest ih =>
    rw [addModels_cons, bind_eq_error_iff] at h
    rcases h with h | ⟨next, hnext, h⟩
    · exact ⟨[], m, rest, pins, rfl, rfl, h⟩
    · obtain ⟨before, m', after, mid, rfl, hbefore, hadd⟩ := ih h
      refine ⟨m :: before, m', after, mid, rfl, ?_, hadd⟩
      rw [addModels_cons, bind_eq_ok_iff]
      exact ⟨next, hnext, hbefore⟩

/-- Relocation in place fails exactly if the pins of the models disagree.  Then all models are left
as they were, and the file that is blamed is that of the first model whose pins disagree with those
of the models before it. -/
theorem relocateInPlace_spec (ms : List Model) :
    ((∃ d, (relocateInPlace.run.run ms).1 = .error d) ↔ Disagree ms) ∧
    ∀ d ms', relocateInPlace.run.run ms = (.error d, ms') →
      ms' = ms ∧ (∃ clash, d.fault = .slotClash clash) ∧
      ∃ before m after, ms = before ++ m :: after ∧ d.file = m.file ∧
        ¬ Disagree before ∧ Disagree (before ++ [m]) := by
  rw [relocateInPlace_eq, disagree_iff, ← relocate_isOk_iff]
  cases hrelocate : Program.relocate ms with
  | ok ms' => exact ⟨by simp, by rintro _ _ ⟨⟩⟩
  | error d =>
    refine ⟨by simp, ?_⟩
    rintro _ _ ⟨⟩
    obtain ⟨before, m, after, pins, rfl, hpins, hadd⟩ :=
      split_of_addModels_eq_error (relocate_eq_error_iff.mp hrelocate)
    refine ⟨rfl, slotClash_of_addStage hadd, before, m, after, rfl, (place_of_addStage hadd).1, ?_,
      ?_⟩
    · rw [disagree_iff, not_not]
      exact (pinsOf_records hpins).consistent
    · rw [disagree_iff, consistent_snoc_iff hpins, hadd]
      simp

end AnnotatedShader.Batch
