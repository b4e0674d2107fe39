import AnnotatedShader.Proofs.Batch.Relocation
import AnnotatedShader.Proofs.Lists
import AnnotatedShader.Proofs.Slot.Pins

set_option autoImplicit false

/-!
# The files that keep their models

The rounds of relocation amount to one pass over the batch.  A file keeps its model if the slots
that its buffers are pinned to agree with those of the files kept before it.  Otherwise it gets the
diagnostic that the slots of these files and its own give, and nothing else changes.

`Pass` is that pass as a relation between the work before and the work after it.  It mentions
neither rounds nor a bound on them.  Pins are compared as claims of a name to a slot (`claims`), and
whether relocation succeeds is a fact about claims alone (`relocate_isOk_iff`).  `settle_pass`
proves that the rounds are the pass, by induction on the files that are still to be looked at.  What
the kept files have in the end are the slots of one relocation of them (`SameBut`,
`replaceModels_sameBut`).
-/

namespace AnnotatedShader.Batch

open Program

/-- The slots that the buffers of models are pinned to, by their names. -/
def claims (ms : List Model) : List (String × Int) := asked (ms.map buffersOf)

theorem claims_append (ms ms' : List Model) : claims (ms ++ ms') = claims ms ++ claims ms' := by
  rw [claims, List.map_append, asked, List.flatMap_append]
  rfl

theorem claims_singleton (m : Model) : claims [m] = (buffersOf m).asked := by
  simp [claims, asked]

/-- A program gets common slots exactly when the pins of its files are consistent. -/
theorem relocate_isOk_iff {ms : List Model} :
    (∃ ms', Program.relocate ms = .ok ms') ↔ Consistent (claims ms) := by
  have hpins := @addStages_isOk_iff ResourceClass.constantBuffer.text (ms.map buffersOf) _ _
    records_nil
  rw [List.nil_append] at hpins
  rw [claims, ← hpins]
  constructor
  · rintro ⟨ms', h⟩
    cases hadd : addModels [] ms with
    | ok pins => exact ⟨pins, hadd⟩
    | error d =>
      rw [relocate_eq_error_iff.mpr hadd] at h
      contradiction
  · rintro ⟨pins, hadd⟩
    cases h : Program.relocate ms with
    | ok ms' => exact ⟨ms', rfl⟩
    | error d => exact absurd ((relocate_eq_error_iff.mp h).symm.trans hadd) (by simp)

/-- One pass over files, behind those whose models are kept. -/
inductive Pass : (kept : List Model) → List Work → List Work → Prop
  | nil (kept : List Model) : Pass kept [] []
  /-- A file that has no model is passed by. -/
  | bare {kept : List Model} {w : Work} {ws ws' : List Work} (hw : w.model = none)
    (h : Pass kept ws ws') : Pass kept (w :: ws) (w :: ws')
  /-- A file whose pins agree with those of the files kept before is kept as it is. -/
  | keep {kept : List Model} {w : Work} {m : Model} {ws ws' : List Work} (hw : w.model = some m)
    (hm : Consistent (claims (kept ++ [m]))) (h : Pass (kept ++ [m]) ws ws') :
    Pass kept (w :: ws) (w :: ws')
  /-- Another one loses its model to the clash of its pins with theirs. -/
  | drop {kept : List Model} {w : Work} {m : Model} {d : Diagnostic} {clash : SlotClash}
    {ws ws' : List Work} (hw : w.model = some m) (hm : ¬ Consistent (claims (kept ++ [m])))
    (hd : Program.relocate (kept ++ [m]) = .error d) (hfile : d.file = w.name)
    (hfault : d.fault = .slotClash clash) (h : Pass kept ws ws') :
    Pass kept (w :: ws) ({ w with model := none, diagnostics := w.diagnostics ++ [d] } :: ws')

/-! ## The rounds are a pass -/

theorem addModels_append (pins : List Pin) (ms ms' : List Model) :
    addModels pins (ms ++ ms') = addModels pins ms >>= (addModels · ms') := by
  rw [addModels, List.map_append, List.foldlM_append]
  rfl

theorem addModels_singleton (pins : List Pin) (m : Model) :
    addModels pins [m] = addStage ResourceClass.constantBuffer.text pins (buffersOf m) := by
  rw [addModels_cons]
  cases addStage ResourceClass.constantBuffer.text pins (buffersOf m) <;> rfl

theorem addModels_snoc {kept : List Model} {pins : List Pin} (hpins : addModels [] kept = .ok pins)
    (m : Model) : addModels [] (kept ++ [m]) =
      addStage ResourceClass.constantBuffer.text pins (buffersOf m) := by
  rw [addModels_append, hpins, ← addModels_singleton]
  rfl

theorem consistent_snoc_iff {kept : List Model} {pins : List Pin}
    (hpins : addModels [] kept = .ok pins) (m : Model) :
    Consistent (claims (kept ++ [m])) ↔
      ∃ pins', addStage ResourceClass.constantBuffer.text pins (buffersOf m) = .ok pins' := by
  rw [addStage_isOk_iff (pinsOf_records hpins), claims_append, claims_singleton, claims]

theorem slotClash_of_addStage {resource : String} {pins : List Pin} {stage : Program.Stage}
    {d : Diagnostic} (h : addStage resource pins stage = .error d) :
    ∃ clash, d.fault = .slotClash clash := by
  obtain ⟨mid, s, _, hpin⟩ := exists_of_foldlM_eq_error h
  unfold addPin at hpin
  split at hpin
  · contradiction
  · split at hpin
    · rename_i hclash
      rw [← Except.error.inj hpin]
      unfold pinClash? at hclash
      split at hclash
      · exact ⟨_, by rw [← Option.some.inj hclash]⟩
      · split at hclash
        · exact ⟨_, by rw [← Option.some.inj hclash]⟩
        · contradiction
    · split at hpin <;> contradiction

theorem settle_pass {kept : List Model} {pins : List Pin} (hpins : addModels [] kept = .ok pins)
    {ws : List Work} (hws : Named ws) : Pass kept ws (settle pins ws) := by
  induction ws generalizing kept pins with
  | nil => exact .nil kept
  | cons w rest ih =>
    rw [settle]
    cases hmodel : w.model with
    | none => exact .bare hmodel (ih hpins hws.tail)
    | some m =>
      cases hadd : addStage ResourceClass.constantBuffer.text pins (buffersOf m) with
      | ok pins' =>
        simp only [hadd]
        exact .keep hmodel ((consistent_snoc_iff hpins m).mpr ⟨pins', hadd⟩)
          (ih ((addModels_snoc hpins m).trans hadd) hws.tail)
      | error d =>
        have hinconsistent : ¬ Consistent (claims (kept ++ [m])) := by
          rw [consistent_snoc_iff hpins]
          rintro ⟨pins', hok⟩
          rw [hadd] at hok
          contradiction
        have hfile : d.file = w.name :=
          (place_of_addStage hadd).1.trans (hws.file w List.mem_cons_self m hmodel)
        obtain ⟨clash, hfault⟩ := slotClash_of_addStage hadd
        simp only [hadd]
        exact .drop hmodel hinconsistent
          (relocate_eq_error_iff.mpr ((addModels_snoc hpins m).trans hadd)) hfile hfault
          (ih hpins hws.tail)

/-! ## New models in the places of those that are kept -/

/-- Whether files differ in their models at most, and both have one or neither. -/
structure SameBut (w w' : Work) : Prop where
  name : w'.name = w.name
  parsed : w'.parsed = w.parsed
  diagnostics : w'.diagnostics = w.diagnostics
  model : w'.model.isSome = w.model.isSome

theorem replaceModels_sameBut {ws : List Work} {ms : List Model}
    (h : ms.length = (models ws).length) :
    List.Forall₂ SameBut ws (replaceModels ws ms) ∧ models (replaceModels ws ms) = ms := by
  induction ws generalizing ms with
  | nil =>
    obtain rfl := List.length_eq_zero_iff.mp h
    exact ⟨.nil, rfl⟩
  | cons w rest ih =>
    cases hmodel : w.model with
    | none =>
      rw [models_cons_none hmodel] at h
      obtain ⟨hsame, hmodels⟩ := ih h
      rw [replaceModels_cons_none hmodel, models_cons_none hmodel]
      exact ⟨.cons ⟨rfl, rfl, rfl, rfl⟩ hsame, hmodels⟩
    | some m =>
      rw [models_cons_some hmodel] at h
      cases ms with
      | nil => contradiction
      | cons new ms =>
        obtain ⟨hsame, hmodels⟩ := ih (Nat.succ.inj h)
        have hreplace : replaceModels (w :: rest) (new :: ms) =
            { w with model := some new } :: replaceModels rest ms := by
          simp only [replaceModels, hmodel]
        rw [hreplace, models_cons_some rfl, hmodels]
        exact ⟨.cons ⟨rfl, rfl, rfl, by rw [hmodel]; rfl⟩ hsame, rfl⟩

theorem length_of_relocate {ms ms' : List Model} (h : Program.relocate ms = .ok ms') :
    ms'.length = ms.length := by
  simp only [Program.relocate, bind_eq_ok_iff] at h
  obtain ⟨buffers, -, textures, -, h⟩ := h
  rw [← Except.ok.inj h, List.length_map]

/-- The relocation of files with distinct names ends: it takes no more rounds than there are models.
The files that keep a model are those that one pass keeps, each of the others gets the one
diagnostic that the pass gives it, and the models that are left are those of the program of the kept
files alone. -/
theorem relocate_pass {ws : List Work} (hws : Named ws) :
    (∀ fuel, (models ws).length < fuel → relocateFrom fuel ws = relocate ws) ∧
    ∃ passed, Pass [] ws passed ∧ List.Forall₂ SameBut passed (relocate ws) ∧
      Program.relocate (models passed) = .ok (models (relocate ws)) := by
  obtain ⟨ms, hms, hrelocate⟩ := relocate_eq hws
  obtain ⟨hsame, hmodels⟩ := replaceModels_sameBut (length_of_relocate hms)
  refine ⟨fun fuel hfuel => ?_, settle [] ws, settle_pass rfl hws, ?_, ?_⟩
  · obtain ⟨ms', hms', hfrom⟩ := relocateFrom_eq hws hfuel
    obtain rfl : ms = ms' := Except.ok.inj (hms.symm.trans hms')
    rw [hfrom, hrelocate]
  · rw [hrelocate]
    exact hsame
  · rw [hms, hrelocate, hmodels]

/-- A file with one buffer, pinned to slot 0. -/
def pinned (file buffer : String) : Work :=
  ⟨file, none, some { Model.empty file .vertex with
    buffers := [⟨buffer, [], some 0, 0, file, ⟨2, 1⟩, ⟨[], 0, 16⟩, 0, false⟩] }, []⟩

/-- Of two buffers that want one slot the second loses, and the file behind them is not touched. -/
def rivals : List Work :=
  [pinned "Camera" "Camera", pinned "Skin" "Skin", ⟨"Sky", none, some (.empty "Sky" .pixel), []⟩]

theorem relocate_pass_rivals :
    Named rivals ∧ ∃ passed, Pass [] rivals passed ∧ List.Forall₂ SameBut passed (relocate rivals) ∧
      Program.relocate (models passed) = .ok (models (relocate rivals)) ∧
      (relocate rivals).map (·.model.isSome) = [true, false, true] := by
  have hnamed : Named rivals := by
    refine ⟨by decide, ?_⟩
    simp [rivals, pinned, Model.empty]
  obtain ⟨_, passed, hpass, hsame, hmodels⟩ := relocate_pass hnamed
  exact ⟨hnamed, passed, hpass, hsame, hmodels, by decide +kernel⟩

end AnnotatedShader.Batch
