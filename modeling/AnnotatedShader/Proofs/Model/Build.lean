import AnnotatedShader.Proofs.Model.Visit

set_option autoImplicit false

/-!
# Accepted models

Where the structs and buffers of an accepted model come from.  A buffer is either introduced by a
statement, with a body over the structs of the model, or it is the root buffer, which holds
constants that are introduced by statements.

`Drafted` is what the visits keep of a draft: its structs are derived, its buffers have bodies over
them and its root constants have types.  `BufferOf` and `RootOf` are stated in a form that survives
later definitions, so that each visit has to look at the new part only (`Drafted.visit`).  The root
buffer is put among the others at the end (`Rooted`).  `Accepted` collects what all this says of a
model, and is what the theorems on layouts start from.
-/

namespace AnnotatedShader.Model

open AnnotatedShader.Layout

/-! ## Names -/

/-- The names that the statements of a module introduce. -/
def namesOf (m : Module) : List String := m.statements.filterMap Statement.name?

theorem distinctNames_spec {file : String} {seen : List String} {statements : List Statement}
    (h : distinctNames file seen statements = .ok ()) :
    (statements.filterMap Statement.name?).Nodup ∧
      ∀ name ∈ statements.filterMap Statement.name?, name ∉ seen := by
  induction statements generalizing seen with
  | nil => simp
  | cons s rest ih =>
    unfold distinctNames at h
    split at h
    · rename_i hname
      rw [List.filterMap_cons_none hname]
      exact ih h
    · rename_i name hname
      rw [List.filterMap_cons_some hname]
      split at h
      · simp [Failure.at_] at h
      · rename_i hseen
        obtain ⟨hnodup, hfresh⟩ := ih h
        refine ⟨List.nodup_cons.mpr ⟨?_, hnodup⟩, ?_⟩
        · intro hmem
          exact hfresh name hmem List.mem_cons_self
        · intro other hother hin
          rcases List.mem_cons.mp hother with rfl | hother
          · exact hseen (by simpa using hin)
          · exact hfresh other hother (List.mem_cons_of_mem _ hin)

/-! ## Buffers and constants -/

/-- The buffer that a statement introduces. -/
structure BufferOf (ns : Namespace) (structs : List StructDef) (i : Introduction) (b : Buffer) :
    Prop where
  source : ∃ name attr fields order raw, i.declaration = .buffer name attr fields ∧
    PinsAtMost attr ∧ orderOf i.origin i.declared attr = .ok order ∧
    Body ns i.origin structs fields raw b.layout ∧
    b = ⟨i.name, placeMembers raw b.layout, order, i.index, i.origin, i.position, b.layout,
      unassigned, false⟩

/-- The constant for the root buffer that a statement introduces. -/
structure RootOf (i : Introduction) (r : RootConstant) : Prop where
  source : ∃ p t order, i.declaration = .constant p ∧ TextureKind.ofName? p.type.name = none ∧
    p.type.element = none ∧ ShaderType.ofName? p.type.name = some t ∧ t ≠ .sampler ∧
    PinsAtMost p.attr ∧ orderOf i.origin p.position p.attr = .ok order ∧
    r = ⟨⟨i.name, match p.type.size with
        | some n => .array p.type.render t n
        | none => t, p.type.render, p.attr, 0, 0, 0⟩, order, i.index, i.position⟩

/-- What the visits of the statements of a module leave behind. -/
structure Drafted (ns : Namespace) (Known : DeclaredStruct → Prop) (Source : Introduction → Prop)
    (d : Draft) : Prop where
  structs : Derived ns Known d.model.structs
  buffers : ∀ b ∈ d.model.buffers, ∃ i, Source i ∧ BufferOf ns d.model.structs i b
  roots : ∀ r ∈ d.roots, ∃ i, Source i ∧ RootOf i r

theorem BufferOf.grow {ns : Namespace} {structs structs' : List StructDef} {i : Introduction}
    {b : Buffer} (h : BufferOf ns structs i b) (hs : structs <+: structs') :
    BufferOf ns structs' i b := by
  obtain ⟨name, attr, fields, order, raw, hdecl, hattr, horder, hbody, hb⟩ := h.source
  exact ⟨name, attr, fields, order, raw, hdecl, hattr, horder, hbody.grow hs, hb⟩

/-- The structs that introductions declare are of a class. -/
def CoversStructs (Known : DeclaredStruct → Prop) (Source : Introduction → Prop) : Prop :=
  ∀ i, Source i → ∀ name attr fields, i.declaration = .buffer name attr fields →
    Known ⟨⟨name, i.origin⟩, i.declared, fields⟩

section Visits

variable {ns : Namespace} {Known : DeclaredStruct → Prop} {Source : Introduction → Prop}
  (hcovers : CoversNames ns Known) (hstructs : CoversStructs Known Source)

include hcovers hstructs

/-- A visit keeps what is known of a draft. -/
theorem Drafted.visit {d d' : Draft} {i : Introduction} (hd : Drafted ns Known Source d)
    (hi : Source i) (h : Visited ns d i d') : Drafted ns Known Source d' := by
  cases h with
  | structType name fields structs hdecl hdefine =>
    have hknown := hstructs i hi name _ fields hdecl
    obtain ⟨hgrown, _⟩ := defineStruct_spec hcovers _ _ _ hd.structs hknown hdefine
    refine ⟨hgrown.derived, ?_, hd.roots⟩
    intro b hb
    obtain ⟨j, hj, hb⟩ := hd.buffers b hb
    exact ⟨j, hj, hb.grow hgrown.before⟩
  | buffer name attr fields order members layout structs hdecl hattr horder hstruct =>
    obtain ⟨hgrown, raw, hbody, rfl⟩ :=
      structBody_spec hcovers (defineStruct_spec hcovers) hd.structs hstruct
    refine ⟨hgrown.derived, ?_, hd.roots⟩
    intro b hb
    rcases List.mem_append.mp hb with hb | hb
    · obtain ⟨j, hj, hb⟩ := hd.buffers b hb
      exact ⟨j, hj, hb.grow hgrown.before⟩
    · obtain rfl := List.mem_singleton.mp hb
      exact ⟨i, hi, name, attr, fields, order, raw, hdecl, hattr, horder, hbody, rfl⟩
  | numeric p t order hdecl hkind helement htype hnumeric hattr horder =>
    refine ⟨hd.structs, hd.buffers, ?_⟩
    intro r hr
    rcases List.mem_append.mp hr with hr | hr
    · exact hd.roots r hr
    · obtain rfl := List.mem_singleton.mp hr
      exact ⟨i, hi, p, t, order, hdecl, hkind, helement, htype, hnumeric, hattr, horder, rfl⟩
  | _ => exact ⟨hd.structs, hd.buffers, hd.roots⟩

end Visits

/-! ## The root buffer -/

/-- The root buffer that constants make up. -/
structure RootBuffer (file : String) (roots : List RootConstant) (b : Buffer) : Prop where
  orders : (rootOrders roots).length ≤ 1
  layout : Std140.ofFields (fun _ => none)
    ((roots.map RootConstant.member).map fun m => ⟨m.name, m.type, false⟩) = .ok b.layout
  eq : ∃ first rest, roots = first :: rest ∧
    b = ⟨rootName, placeMembers (roots.map RootConstant.member) b.layout,
      (rootOrders roots).head?, first.index, file, first.position, b.layout, unassigned, true⟩

/-- A model is a draft without constants, or one whose constants are in a root buffer. -/
inductive Rooted (file : String) (names : List String) (d : Draft) : Model → Prop
  | plain (hroots : d.roots = []) : Rooted file names d d.model
  | root (b : Buffer) (hname : rootName ∉ names) (hb : RootBuffer file d.roots b) :
    Rooted file names d { d.model with buffers := sortBuffers (d.model.buffers ++ [b]) }

theorem buildRoot_rooted {file : String} {names : List String} {d : Draft} {model : Model}
    (h : buildRoot file names d = .ok model) : Rooted file names d model := by
  unfold buildRoot at h
  split at h
  · rename_i hroots
    obtain rfl := Except.ok.inj h
    exact .plain hroots
  · rename_i first rest hroots
    split at h
    · simp [Failure.at_] at h
    · rename_i hname
      simp only at h
      split at h
      · simp [Failure.at_] at h
      · rename_i horders
        rw [bind_eq_ok_iff] at h
        obtain ⟨l, hl, h⟩ := h
        obtain rfl := Except.ok.inj h
        refine .root _ (by simpa using hname) ⟨Nat.not_lt.mp horders, ?_, first, rest, hroots, rfl⟩
        exact fitting_eq_ok_iff.mp hl

/-! ## Whole models -/

/-- Where the structs and buffers of a model come from. -/
structure Accepted (ns : Namespace) (Known : DeclaredStruct → Prop) (m : Module)
    (imports : List ResolvedImport) (model : Model) : Prop where
  names : (namesOf m).Nodup
  structs : Derived ns Known model.structs
  buffers : ∀ b ∈ model.buffers,
    (∃ i, Introduces m.file imports 0 m.statements i ∧ BufferOf ns model.structs i b) ∨
      ∃ roots, RootBuffer m.file roots b ∧ rootName ∉ namesOf m ∧
        ∀ r ∈ roots, ∃ i, Introduces m.file imports 0 m.statements i ∧ RootOf i r

theorem build_eq_ok {m : Module} {stage : Stage} {ns : Namespace} {imports : List ResolvedImport}
    {model : Model} (h : build m stage ns imports = .ok model) :
    (namesOf m).Nodup ∧
      ∃ d, visitAll ns m.file imports 0 ⟨.empty m.file stage, [], []⟩ m.statements = .ok d ∧
        Rooted m.file (namesOf m) d model ∧ checkSamplers ns d.samplerRefs = .ok () := by
  simp only [build, bind_eq_ok_iff] at h
  obtain ⟨_, hnames, d, hvisit, root, hroot, _, hsamplers, h⟩ := h
  obtain rfl := Except.ok.inj h
  exact ⟨(distinctNames_spec hnames).1, d, hvisit, buildRoot_rooted hroot, hsamplers⟩

theorem Rooted.mem_buffers {file : String} {names : List String} {d : Draft} {model : Model}
    (h : Rooted file names d model) {b : Buffer} (hb : b ∈ d.model.buffers) :
    b ∈ model.buffers := by
  cases h with
  | plain _ => exact hb
  | root root _ _ =>
    rw [sortBuffers, List.mem_mergeSort]
    exact List.mem_append_left _ hb

/-- A struct that is introduced and not packed has a buffer. -/
theorem exists_buffer {m : Module} {stage : Stage} {ns : Namespace} {imports : List ResolvedImport}
    {model : Model} (h : build m stage ns imports = .ok model) {i : Introduction}
    (hi : Introduces m.file imports 0 m.statements i) {name : String} {attr : Option Attribute}
    {fields : List Property} (hdecl : i.declaration = .buffer name attr fields)
    (hattr : attr ≠ some .pack) : ∃ b ∈ model.buffers, b.name = i.name := by
  obtain ⟨_, d, hvisit, hroot, _⟩ := build_eq_ok h
  obtain ⟨before, after, _, hvisited, hbefore⟩ :=
    visitAll_visited (P := fun _ => True) trivial (fun _ _ _ _ _ _ => trivial) hvisit hi
  suffices hafter : ∃ b ∈ after.model.buffers, b.name = i.name by
    obtain ⟨b, hb, hname⟩ := hafter
    exact ⟨b, hroot.mem_buffers (hbefore.subset hb), hname⟩
  cases hvisited with
  | structType name' fields' structs hdecl' =>
    rw [hdecl] at hdecl'
    exact absurd (Declaration.buffer.inj hdecl').2.1 hattr
  | buffer name' attr' fields' order members layout structs =>
    exact ⟨_, List.mem_append_right _ (List.mem_singleton_self _), rfl⟩
  | _ => simp_all

/-- A model that is built has structs and buffers of these origins. -/
theorem build_accepted {m : Module} {stage : Stage} {ns : Namespace}
    {imports : List ResolvedImport} {model : Model} {Known : DeclaredStruct → Prop}
    (hcovers : CoversNames ns Known)
    (hstructs : CoversStructs Known (Introduces m.file imports 0 m.statements))
    (h : build m stage ns imports = .ok model) : Accepted ns Known m imports model := by
  obtain ⟨hnames, d, hvisit, hroot, _⟩ := build_eq_ok h
  have hempty : Drafted ns Known (Introduces m.file imports 0 m.statements)
      ⟨.empty m.file stage, [], []⟩ := ⟨.nil, by simp [Model.empty], by simp⟩
  have hd := visitAll_induction hempty
    (fun d i d' hd hi hv => hd.visit hcovers hstructs hi hv) hvisit
  cases hroot with
  | plain _ => exact ⟨hnames, hd.structs, fun b hb => Or.inl (hd.buffers b hb)⟩
  | root root hname hroot =>
    refine ⟨hnames, hd.structs, ?_⟩
    intro b hb
    rw [sortBuffers, List.mem_mergeSort, List.mem_append, List.mem_singleton] at hb
    rcases hb with hb | rfl
    · exact Or.inl (hd.buffers b hb)
    · exact Or.inr ⟨d.roots, hroot, hname, hd.roots⟩

/-- So much holds in every namespace, also in one that is not made from the files of a batch. -/
theorem accepted_of_build {m : Module} {stage : Stage} {ns : Namespace}
    {imports : List ResolvedImport} {model : Model} (h : build m stage ns imports = .ok model) :
    Accepted ns (fun _ => True) m imports model :=
  build_accepted (fun _ _ _ _ => trivial) (fun _ _ _ _ _ _ => trivial) h

end AnnotatedShader.Model
