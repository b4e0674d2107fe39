import AnnotatedShader.Proofs.Model.Introduction
import AnnotatedShader.Proofs.Model.WellFormed
import AnnotatedShader.Proofs.Slot.Unslotted
import AnnotatedShader.Proofs.Statement.Values
import AnnotatedShader.Reflection

set_option autoImplicit false

/-!
# State blocks

The pipelines and blend functions of a model are those that its statements declare or import, in the
order of the statements, each with all entries of its declaration.  No key occurs twice in a block.

State blocks are the only part of a model that no later step looks at: they have no slots and no
text, and are recorded as they are.  So they are followed through the visits directly.  `Collects`
says that what visits add to a list is a `filterMap` over what the statements bring, for pipelines
and for blend functions alike, and `StatesOf` is the result for a model, with values in their one
form if those of the modules are.
-/

namespace AnnotatedShader

/-- The declaration that a statement brings into its file, with its name there. -/
def Statement.brings? (ns : Namespace) (s : Statement) : Option (String × Declaration) :=
  match s.body with
  | .declare d => some (d.name, d)
  | .use u => (ns.lookup u.file u.member).map fun sym => (u.name, sym.declaration)
  | .comment _ => none

/-- What the statements of a file bring, in order. -/
def Module.brought (m : Module) (ns : Namespace) : List (String × Declaration) :=
  m.statements.filterMap (Statement.brings? ns)

/-- What a file brings has its floating numbers in their one form, if this is so in all files. -/
theorem Module.brought_canonical {ms : List Module} (hms : ∀ m ∈ ms, m.Canonical) {m : Module}
    (hm : m.Canonical) {b : String × Declaration} (hb : b ∈ m.brought (.ofModules ms)) :
    ∀ e ∈ b.2.entries, e.value.Canonical := by
  obtain ⟨s, hs, hbrings⟩ := List.mem_filterMap.mp hb
  unfold Statement.brings? at hbrings
  split at hbrings
  · rename_i d hbody
    obtain rfl := Option.some.inj hbrings
    have h := hm s hs
    rw [hbody] at h
    exact h
  · rename_i u hbody
    obtain ⟨sym, hlookup, rfl⟩ := Option.map_eq_some_iff.mp hbrings
    obtain ⟨_, _, m', hm', _, hdeclared⟩ := Namespace.lookup_ofModules_eq_some hlookup
    exact hms m' hm' _ (mem_statements_of_mem_declarations hdeclared)
  · contradiction

namespace Reflection

/-- The record of a pipeline that a file brings. -/
def pipelineRecord? (brought : String × Declaration) : Option StateRecord :=
  match brought.2 with
  | .pipeline _ entries => some ⟨brought.1, entries⟩
  | _ => none

/-- The record of a blend function that a file brings. -/
def blendFuncRecord? (brought : String × Declaration) : Option StateRecord :=
  match brought.2 with
  | .blendFunc _ entries => some ⟨brought.1, entries⟩
  | _ => none

end Reflection

/-- The entries of a record are those of the declaration. -/
theorem Reflection.entries_of_record? {brought : String × Declaration} {record : StateRecord}
    (h : pipelineRecord? brought = some record ∨ blendFuncRecord? brought = some record) :
    record.entries = brought.2.entries := by
  obtain ⟨name, d⟩ := brought
  cases d <;> simp [pipelineRecord?, blendFuncRecord?] at h <;> rw [← h] <;> rfl

namespace Model

open Reflection (stateRecord pipelineRecord? blendFuncRecord?)

theorem brings?_of_introduction? {ns : Namespace} {file : String} {imports : List ResolvedImport}
    (himports : ∀ r ∈ imports, ns.lookup r.use.file r.use.member = some r.target) {index : Nat}
    {s : Statement} {i? : Option Introduction} (h : introduction? file imports index s = .ok i?) :
    s.brings? ns = i?.map fun i => (i.name, i.declaration) := by
  cases i? with
  | none =>
    unfold introduction? at h
    split at h
    · rename_i hbody
      simp [Statement.brings?, hbody]
    · simp at h
    · split at h <;> simp at h
  | some i =>
    cases introducedBy_of_introduction? h with
    | declare d hbody => simp [Statement.brings?, hbody]
    | use r hbody hmem => simp [Statement.brings?, hbody, himports r hmem]

/-- The blocks of one class: those of a list of a model, each with the record of what brings it. -/
structure Collects (ns : Namespace) (blocks : Model → List StateBlock)
    (record? : String × Declaration → Option StateRecord) : Prop where
  visit : ∀ {d d' : Draft} {i : Introduction}, Visited ns d i d' →
    (blocks d'.model).map stateRecord =
      (blocks d.model).map stateRecord ++ (record? (i.name, i.declaration)).toList

theorem collects_pipelines (ns : Namespace) : Collects ns Model.pipelines pipelineRecord? := by
  refine ⟨fun {d d' i} h => ?_⟩
  cases h <;> simp [pipelineRecord?, stateRecord, *]

theorem collects_blendFuncs (ns : Namespace) : Collects ns Model.blendFuncs blendFuncRecord? := by
  refine ⟨fun {d d' i} h => ?_⟩
  cases h <;> simp [blendFuncRecord?, stateRecord, *]

theorem Collects.visitAll {ns : Namespace} {blocks : Model → List StateBlock}
    {record? : String × Declaration → Option StateRecord} (hcollects : Collects ns blocks record?)
    {file : String} {imports : List ResolvedImport}
    (himports : ∀ r ∈ imports, ns.lookup r.use.file r.use.member = some r.target) {index : Nat}
    {d d' : Draft} {statements : List Statement}
    (h : visitAll ns file imports index d statements = .ok d') :
    (blocks d'.model).map stateRecord = (blocks d.model).map stateRecord ++
      (statements.filterMap (Statement.brings? ns)).filterMap record? := by
  induction statements generalizing index d with
  | nil =>
    obtain rfl := Except.ok.inj h
    simp
  | cons s rest ih =>
    rw [Model.visitAll, bind_eq_ok_iff] at h
    obtain ⟨i?, hi, h⟩ := h
    have hbrings := brings?_of_introduction? himports hi
    cases i? with
    | none =>
      rw [List.filterMap_cons_none hbrings]
      exact ih h
    | some i =>
      simp only [bind_eq_ok_iff] at h
      obtain ⟨mid, hvisit, h⟩ := h
      rw [List.filterMap_cons_some hbrings, ih h, hcollects.visit (visit_visited hvisit)]
      cases hrecord : record? (i.name, i.declaration) with
      | none => rw [List.filterMap_cons_none hrecord]; simp
      | some record => rw [List.filterMap_cons_some hrecord]; simp

/-- No key occurs twice in a block. -/
def KeysDiffer (blocks : List StateBlock) : Prop :=
  ∀ block ∈ blocks, (block.entries.map StateEntry.key).Nodup

theorem keysDiffer_visit {ns : Namespace} {d d' : Draft} {i : Introduction}
    (h : KeysDiffer (d.model.pipelines ++ d.model.blendFuncs)) (hv : Visited ns d i d') :
    KeysDiffer (d'.model.pipelines ++ d'.model.blendFuncs) := by
  obtain ⟨hpipelines, hblendFuncs⟩ := List.forall_mem_append.mp h
  cases hv with
  | pipeline name entries hdecl hkeys =>
    refine List.forall_mem_append.mpr ⟨List.forall_mem_append.mpr ⟨hpipelines, ?_⟩, hblendFuncs⟩
    exact List.forall_mem_singleton.mpr (distinctKeys_spec hkeys).1
  | blendFunc name entries hdecl hkeys =>
    refine List.forall_mem_append.mpr ⟨hpipelines, List.forall_mem_append.mpr ⟨hblendFuncs, ?_⟩⟩
    exact List.forall_mem_singleton.mpr (distinctKeys_spec hkeys).1
  | _ => exact h

/-- The state blocks of a model. -/
structure StatesOf (m : Module) (ns : Namespace) (model : Model) : Prop where
  pipelines : model.pipelines.map stateRecord = (m.brought ns).filterMap pipelineRecord?
  blendFuncs : model.blendFuncs.map stateRecord = (m.brought ns).filterMap blendFuncRecord?
  keys : KeysDiffer (model.pipelines ++ model.blendFuncs)

/-- State blocks have no slots. -/
theorem StatesOf.of_unslotted_eq {m : Module} {ns : Namespace} {model model' : Model}
    (h : StatesOf m ns model) (heq : model'.unslotted = model.unslotted) :
    StatesOf m ns model' := by
  have hpipelines := congrArg Model.pipelines heq
  have hblendFuncs := congrArg Model.blendFuncs heq
  simp only [unslotted] at hpipelines hblendFuncs
  exact ⟨hpipelines ▸ h.pipelines, hblendFuncs ▸ h.blendFuncs, by
    rw [hpipelines, hblendFuncs]
    exact h.keys⟩

theorem build_statesOf {m : Module} {stage : Stage} {ns : Namespace} {imports : List ResolvedImport}
    {model : Model} (himports : m.resolveImports ns = .ok imports)
    (h : build m stage ns imports = .ok model) : StatesOf m ns model := by
  obtain ⟨_, d, hvisit, hroot, _⟩ := build_eq_ok h
  have hlookup : ∀ r ∈ imports, ns.lookup r.use.file r.use.member = some r.target := by
    intro r hr
    obtain ⟨entry, _, hresolves⟩ :=
      exists_left_of_forall₂ (Module.resolveImports_eq_ok himports).2 hr
    rw [hresolves.use]
    exact hresolves.lookup
  have hpipelines := (collects_pipelines ns).visitAll hlookup hvisit
  have hblendFuncs := (collects_blendFuncs ns).visitAll hlookup hvisit
  have hkeys := visitAll_induction
    (P := fun d => KeysDiffer (d.model.pipelines ++ d.model.blendFuncs))
    (by simp [empty, KeysDiffer])
    (fun _ _ _ hd _ hv => keysDiffer_visit hd hv) hvisit
  cases hroot <;> exact ⟨hpipelines, hblendFuncs, hkeys⟩

end Model

end AnnotatedShader
