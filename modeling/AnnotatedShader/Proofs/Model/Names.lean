import AnnotatedShader.Proofs.Lists
import AnnotatedShader.Proofs.Model.Introduction
import AnnotatedShader.Proofs.Slot.Unslotted
import Mathlib.Data.List.Perm.Subperm

set_option autoImplicit false

/-!
# Names in a model

The statements of an accepted module have distinct names.  So the entities of its model have
(`build_names`), and the handles by which the body of the shader refers to them (`build_handles`).

The handle of a buffer is its instance; the root buffer has none, so its members are handles
themselves.  Each visit adds the name of its introduction (`Visited.names_subperm`), and a check at
the start of the build has found the names of the statements to be distinct.  Slots leave names as
they are.
-/

/-!
## Names of entities

A visit adds one entity or one constant at most, under the name that its statement introduces.  The
statements of an accepted module have distinct names, none of which is that of the root buffer, so
the entities of its model have distinct names too.
-/

namespace AnnotatedShader.Model

/-- The names of the entities of a model. -/
def names (m : Model) : List String :=
  m.buffers.map Buffer.name ++ m.textures.map Texture.name ++ m.samplers.map Sampler.name ++
    m.outputs.map Output.name ++ m.vertexFormat.toList.map VertexFormat.name ++
    m.pipelines.map StateBlock.name ++ m.blendFuncs.map StateBlock.name

/-- The names of the entities of a draft, and of the constants for its root buffer. -/
def Draft.names (d : Draft) : List String := d.model.names ++ d.roots.map fun r => r.member.name

theorem nodup_of_names {m : Model} (h : m.names.Nodup) :
    (m.buffers.map Buffer.name).Nodup ∧ (m.textures.map Texture.name).Nodup ∧
      (m.outputs.map Output.name).Nodup := by
  simp only [names, List.nodup_append] at h
  obtain ⟨⟨⟨⟨⟨⟨hbuffers, htextures, _⟩, _⟩, houtputs, _⟩, _⟩, _⟩, _⟩ := h
  exact ⟨hbuffers, htextures, houtputs⟩

theorem Visited.names_subperm {ns : Namespace} {d d' : Draft} {i : Introduction}
    (h : Visited ns d i d') : List.Subperm d'.names (i.name :: d.names) := by
  cases h with
  | structType => exact (List.sublist_cons_self _ _).subperm
  | vertexFormat name fields inputs l hdecl hfirst =>
    refine List.Perm.subperm (List.perm_iff_count.mpr fun name => ?_)
    simp only [Draft.names, names, hfirst, Option.toList_some, Option.toList_none, List.map_cons,
      List.map_nil, List.count_append, List.count_cons, List.count_nil]
    omega
  | _ =>
    refine List.Perm.subperm (List.perm_iff_count.mpr fun name => ?_)
    simp only [Draft.names, names, List.map_append, List.map_cons, List.map_nil, List.count_append,
      List.count_cons, List.count_nil]
    omega

/-- The visits of statements add no names but those of the statements, and none twice. -/
theorem visitAll_names {ns : Namespace} {file : String} {imports : List ResolvedImport}
    {index : Nat} {d d' : Draft} {statements : List Statement}
    (h : visitAll ns file imports index d statements = .ok d') :
    List.Subperm d'.names (d.names ++ statements.filterMap Statement.name?) := by
  induction statements generalizing index d with
  | nil =>
    obtain rfl := Except.ok.inj h
    simp [List.Subperm.refl]
  | cons s rest ih =>
    unfold visitAll at h
    rw [bind_eq_ok_iff] at h
    obtain ⟨i?, hi, h⟩ := h
    cases i? with
    | none =>
      have hsublist := (List.sublist_cons_self s rest).filterMap Statement.name?
      exact (ih h).trans (hsublist.append_left _).subperm
    | some i =>
      simp only [bind_eq_ok_iff] at h
      obtain ⟨mid, hvisit, h⟩ := h
      have hadded := (visit_visited hvisit).names_subperm
      rw [List.filterMap_cons_some (introducedBy_of_introduction? hi).name?]
      refine (ih h).trans (((List.subperm_append_right _).mpr hadded).trans ?_)
      exact List.perm_middle.symm.subperm

/-- What is drafted from the statements of a module has names of these, each once. -/
theorem draft_names {m : Module} {stage : Stage} {ns : Namespace} {imports : List ResolvedImport}
    {d : Draft} (hnames : (namesOf m).Nodup)
    (h : visitAll ns m.file imports 0 ⟨.empty m.file stage, [], []⟩ m.statements = .ok d) :
    d.names.Nodup ∧ d.names ⊆ namesOf m := by
  obtain ⟨l, hperm, hsublist⟩ : List.Subperm d.names (namesOf m) := visitAll_names h
  exact ⟨hperm.nodup_iff.mp (hnames.sublist hsublist),
    List.Subset.trans hperm.symm.subset hsublist.subset⟩

/-- The entities of an accepted model have distinct names. -/
theorem build_names {m : Module} {stage : Stage} {ns : Namespace} {imports : List ResolvedImport}
    {model : Model} (h : build m stage ns imports = .ok model) : model.names.Nodup := by
  obtain ⟨hnames, d, hvisit, hroot, _⟩ := build_eq_ok h
  obtain ⟨hdraft, hsub⟩ := draft_names hnames hvisit
  have hmodel : d.model.names.Nodup := hdraft.sublist (List.sublist_append_left _ _)
  cases hroot with
  | plain => exact hmodel
  | root b hfresh hb =>
    obtain ⟨first, rest, _, heq⟩ := hb.eq
    have hperm : List.Perm
        (names { d.model with buffers := sortBuffers (d.model.buffers ++ [b]) })
        (b.name :: d.model.names) := by
      have hsort : List.Perm (sortBuffers (d.model.buffers ++ [b])) (b :: d.model.buffers) :=
        (List.mergeSort_perm _ _).trans (List.perm_append_singleton _ _)
      simp only [names, List.append_assoc]
      exact (hsort.map Buffer.name).append_right _
    rw [hperm.nodup_iff, heq]
    exact List.nodup_cons.mpr
      ⟨fun hmem => hfresh (hsub (List.mem_append_left _ hmem)), hmodel⟩

end AnnotatedShader.Model

/-!
## Handles

The body of a shader refers to a buffer by the name of its instance, to the constants of the root
buffer by their own names, and to textures and outputs by theirs.  These handles are names that
statements introduce, so they are distinct.
-/

namespace AnnotatedShader

/-- The handles of a buffer: the name of its instance, or those of its members if it is the root
buffer, which has no instance. -/
def Buffer.handles (b : Buffer) : List String :=
  if b.isRoot then b.members.map Member.name else [b.name]

namespace Model

/-- The handles of the buffers, textures and outputs. -/
def handles (m : Model) : List String :=
  m.buffers.flatMap Buffer.handles ++ m.textures.map Texture.name ++ m.outputs.map Output.name

theorem handles_unslotted (m : Model) : m.unslotted.handles = m.handles := by
  simp only [handles, unslotted, List.flatMap_map, List.map_map]
  rfl

/-- Only what is collected after all visits is a root buffer. -/
theorem handles_of_visitAll {ns : Namespace} {file : String} {stage : Stage}
    {imports : List ResolvedImport} {statements : List Statement} {d : Draft}
    (h : visitAll ns file imports 0 ⟨.empty file stage, [], []⟩ statements = .ok d) :
    ∀ b ∈ d.model.buffers, b.handles = [b.name] := by
  refine visitAll_induction (P := fun d => ∀ b ∈ d.model.buffers, b.handles = [b.name])
    (by simp [Model.empty]) (fun d i d' hd _ hv => ?_) h
  cases hv with
  | buffer => exact List.forall_mem_append.mpr ⟨hd, List.forall_mem_singleton.mpr rfl⟩
  | _ => exact hd

theorem names_placeMembers (ms : List Member) (l : Layout) :
    (placeMembers ms l).map Member.name <+: ms.map Member.name := by
  rw [placeMembers]
  apply map_zipWith_isPrefix
  exact fun _ _ => rfl

/-- The handles of an accepted model are distinct. -/
theorem build_handles {m : Module} {stage : Stage} {ns : Namespace}
    {imports : List ResolvedImport} {model : Model} (h : build m stage ns imports = .ok model) :
    model.handles.Nodup := by
  obtain ⟨hnames, d, hvisit, hroot, _⟩ := build_eq_ok h
  obtain ⟨hdraft, _⟩ := draft_names hnames hvisit
  have hplain : d.model.buffers.flatMap Buffer.handles = d.model.buffers.map Buffer.name := by
    rw [List.flatMap_congr (handles_of_visitAll hvisit), List.map_eq_flatMap]
  have hsub : (d.model.handles ++ d.roots.map fun r => r.member.name).Sublist d.names := by
    refine List.Sublist.append_right ?_ _
    rw [handles, hplain, names]
    refine List.Sublist.trans ?_ (List.sublist_append_left _ _)
    refine List.Sublist.trans ?_ (List.sublist_append_left _ _)
    refine List.Sublist.trans ?_ (List.sublist_append_left _ _)
    exact (List.sublist_append_left _ _).append_right _
  have hdistinct := hdraft.sublist hsub
  cases hroot with
  | plain => exact hdistinct.sublist (List.sublist_append_left _ _)
  | root b _ hb =>
    obtain ⟨first, rest, _, heq⟩ := hb.eq
    have hconstants : b.handles.Sublist (d.roots.map fun r => r.member.name) := by
      rw [heq]
      have hprefix := (names_placeMembers (d.roots.map RootConstant.member) b.layout).sublist
      rwa [List.map_map] at hprefix
    have hbuffers : ((sortBuffers (d.model.buffers ++ [b])).flatMap Buffer.handles).Perm
        (b.handles ++ d.model.buffers.flatMap Buffer.handles) := by
      have hsort := (List.mergeSort_perm (d.model.buffers ++ [b])
        fun a b => decide (a.index ≤ b.index)).trans (List.perm_append_singleton _ _)
      exact hsort.flatMap_right _
    have hperm : (handles { d.model with
        buffers := sortBuffers (d.model.buffers ++ [b]) }).Perm (b.handles ++ d.model.handles) := by
      simp only [handles, List.append_assoc]
      rw [← List.append_assoc b.handles]
      exact hbuffers.append_right _
    rw [hperm.nodup_iff, List.perm_append_comm.nodup_iff]
    exact hdistinct.sublist (hconstants.append_left _)

end Model

end AnnotatedShader
