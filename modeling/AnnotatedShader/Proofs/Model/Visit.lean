import AnnotatedShader.Model.Build
import AnnotatedShader.Proofs.Model.Struct

set_option autoImplicit false

/-!
# Visits of statements

`Visited` lists all that the visit of a statement can do to a draft, with the conditions under which
it does so: one case for each kind of declaration that leaves something behind.  `visit_visited`
proves that every visit is one of them, and all theorems on models go by these cases and not by the
functions.

A property of drafts that each visit keeps holds of the draft that all visits leave behind
(`visitAll_visited`).  The induction goes over the statements that are left, with the index of the
next one; what a statement introduces is told by `Introduces`, so the case of a comment or a
statement that brings nothing is passed over once, here.
-/

namespace AnnotatedShader.Model

/-- An attribute that is missing or pins a slot. -/
def PinsAtMost (attr : Option Attribute) : Prop := attr = none ∨ ∃ slot, attr = some (.order slot)

/-- What a visit makes of a draft. -/
inductive Visited (ns : Namespace) (d : Draft) (i : Introduction) : Draft → Prop
  | structType (name : String) (fields : List Property) (structs : List StructDef)
    (hdecl : i.declaration = .buffer name (some .pack) fields)
    (hdefine : defineStruct ns d.model.structs ⟨⟨name, i.origin⟩, i.declared, fields⟩ =
      .ok structs) :
    Visited ns d i { d with model := { d.model with structs } }
  | buffer (name : String) (attr : Option Attribute) (fields : List Property) (order : Option Int)
    (members : List Member) (layout : Layout) (structs : List StructDef)
    (hdecl : i.declaration = .buffer name attr fields) (hattr : PinsAtMost attr)
    (horder : orderOf i.origin i.declared attr = .ok order)
    (hbody : structBody ns (defineStruct ns) i.origin name d.model.structs fields =
      .ok (members, layout, structs)) :
    Visited ns d i { d with model := { d.model with
      structs
      buffers := d.model.buffers ++
        [⟨i.name, members, order, i.index, i.origin, i.position, layout, unassigned, false⟩] } }
  | texture (p : Property) (element sampler : String) (t : ShaderType)
    (hdecl : i.declaration = .constant p) (hkind : (TextureKind.ofName? p.type.name).isSome)
    (helement : p.type.element = some element)
    (htype : ShaderType.ofTextureName? p.type.name element = some t) (hsize : p.type.size = none)
    (hattr : p.attr = some (.sampler sampler)) :
    Visited ns d i { d with
      model := { d.model with textures := d.model.textures ++
        [⟨i.name, t, p.type.render, sampler, i.index, i.position, unassigned⟩] }
      samplerRefs := d.samplerRefs ++ [⟨i.name, sampler, i.origin, p.position⟩] }
  | sampler (p : Property) (hdecl : i.declaration = .constant p)
    (hkind : TextureKind.ofName? p.type.name = none) (helement : p.type.element = none)
    (htype : ShaderType.ofName? p.type.name = some .sampler) (hattr : p.attr = none) :
    Visited ns d i { d with model := { d.model with
      samplers := d.model.samplers ++ [⟨i.name, i.index, i.position⟩] } }
  | numeric (p : Property) (t : ShaderType) (order : Option Int)
    (hdecl : i.declaration = .constant p) (hkind : TextureKind.ofName? p.type.name = none)
    (helement : p.type.element = none) (htype : ShaderType.ofName? p.type.name = some t)
    (hnumeric : t ≠ .sampler) (hattr : PinsAtMost p.attr)
    (horder : orderOf i.origin p.position p.attr = .ok order) :
    Visited ns d i { d with roots := d.roots ++
      [⟨⟨i.name, match p.type.size with
          | some n => .array p.type.render t n
          | none => t, p.type.render, p.attr, 0, 0, 0⟩, order, i.index, i.position⟩] }
  | output (p : Property) (t : ShaderType) (order : Option Int)
    (hdecl : i.declaration = .output p) (helement : p.type.element = none)
    (hsize : p.type.size = none) (htype : ShaderType.ofName? p.type.name = some t)
    (hpackable : t.isPackable = true) (hattr : PinsAtMost p.attr)
    (horder : orderOf i.origin p.position p.attr = .ok order) :
    Visited ns d i { d with model := { d.model with outputs := d.model.outputs ++
      [⟨i.name, t, p.type.render, order, i.index, i.position, unassigned⟩] } }
  | vertexFormat (name : String) (fields : List Property) (inputs : List VertexInput) (l : Layout)
    (hdecl : i.declaration = .vertexFormat name none fields)
    (hfirst : d.model.vertexFormat = none) (hinputs : vertexInputs i.origin [] fields = .ok inputs)
    (hlayout : Layout.Vertex.ofFields
      (inputs.map fun input => ⟨input.name, input.type, false⟩) = .ok l) :
    Visited ns d i { d with model := { d.model with
      vertexFormat :=
        some ⟨i.name, placeInputs inputs l, l.size, i.index, i.origin, i.position⟩ } }
  | pipeline (name : String) (entries : List StateEntry)
    (hdecl : i.declaration = .pipeline name entries)
    (hkeys : distinctKeys i [] entries = .ok ()) :
    Visited ns d i { d with model := { d.model with pipelines := d.model.pipelines ++
      [⟨i.name, entries, i.index, i.position⟩] } }
  | blendFunc (name : String) (entries : List StateEntry)
    (hdecl : i.declaration = .blendFunc name entries)
    (hkeys : distinctKeys i [] entries = .ok ()) :
    Visited ns d i { d with model := { d.model with blendFuncs := d.model.blendFuncs ++
      [⟨i.name, entries, i.index, i.position⟩] } }

/-! ## Conditions -/

theorem pinsAtMost_of_ne {attr : Option Attribute} (hpack : attr ≠ some .pack)
    (hsampler : ∀ s, attr ≠ some (.sampler s)) : PinsAtMost attr := by
  cases attr with
  | none => exact Or.inl rfl
  | some a =>
    cases a with
    | order slot => exact Or.inr ⟨slot, rfl⟩
    | pack => exact absurd rfl hpack
    | sampler s => exact absurd rfl (hsampler s)

theorem pinsAtMost_of_allowOnlyOrder {origin name : String} {position : Position}
    {bearer : Bearer} {attr : Option Attribute}
    (h : allowOnlyOrder origin position bearer name attr = .ok ()) : PinsAtMost attr := by
  unfold allowOnlyOrder at h
  split at h
  · simp [Failure.at_] at h
  · simp [Failure.at_] at h
  · rename_i hpack hsampler
    exact pinsAtMost_of_ne hpack hsampler

theorem eq_none_of_allowNone {origin name : String} {position : Position} {bearer : Bearer}
    {attr : Option Attribute} (h : allowNone origin position bearer name attr = .ok ()) :
    attr = none := by
  unfold allowNone at h
  split at h
  · simp [Failure.at_] at h
  · rfl

theorem stateBlock_eq_ok_iff {i : Introduction} {entries : List StateEntry} {block : StateBlock} :
    stateBlock i entries = .ok block ↔
      distinctKeys i [] entries = .ok () ∧ block = ⟨i.name, entries, i.index, i.position⟩ := by
  unfold stateBlock
  rw [bind_eq_ok_iff]
  constructor
  · rintro ⟨_, hkeys, h⟩
    exact ⟨hkeys, (Except.ok.inj h).symm⟩
  · rintro ⟨hkeys, rfl⟩
    exact ⟨(), hkeys, rfl⟩

/-! ## Every visit -/

variable {ns : Namespace} {d d' : Draft} {i : Introduction}

theorem visitBuffer_visited {name : String} {attr : Option Attribute} {fields : List Property}
    (hdecl : i.declaration = .buffer name attr fields)
    (h : visitBuffer ns d i name attr fields = .ok d') : Visited ns d i d' := by
  unfold visitBuffer at h
  split at h
  · rw [bind_eq_ok_iff] at h
    obtain ⟨structs, hdefine, h⟩ := h
    obtain rfl := Except.ok.inj h
    exact .structType name fields structs hdecl hdefine
  · simp [Failure.at_] at h
  · rename_i hpack hsampler
    simp only [bind_eq_ok_iff] at h
    obtain ⟨order, horder, ⟨members, layout, structs⟩, hbody, h⟩ := h
    obtain rfl := Except.ok.inj h
    exact .buffer name attr fields order members layout structs hdecl
      (pinsAtMost_of_ne hpack hsampler) horder hbody

theorem visitTexture_visited {p : Property} (hdecl : i.declaration = .constant p)
    (hkind : (TextureKind.ofName? p.type.name).isSome) (h : visitTexture d i p = .ok d') :
    Visited ns d i d' := by
  unfold visitTexture at h
  simp only at h
  split at h
  · simp [Failure.at_] at h
  · rename_i element helement
    split at h
    · rename_i t htype hsize
      split at h
      · rename_i sampler hattr
        obtain rfl := Except.ok.inj h
        exact .texture p element sampler t hdecl hkind helement htype hsize hattr
      · simp [Failure.at_] at h
    · simp [Failure.at_] at h

theorem visitConstant_visited {p : Property} (hdecl : i.declaration = .constant p)
    (h : visitConstant d i p = .ok d') : Visited ns d i d' := by
  unfold visitConstant at h
  split at h
  · rename_i hkind
    exact visitTexture_visited hdecl hkind h
  · rename_i hkind
    have hkind : TextureKind.ofName? p.type.name = none := by simpa using hkind
    split at h
    · simp [Failure.at_] at h
    · rename_i helement
      have helement : p.type.element = none := by simpa using helement
      split at h
      · simp [Failure.at_] at h
      · rename_i htype
        unfold visitSampler at h
        rw [bind_eq_ok_iff] at h
        obtain ⟨_, hallow, h⟩ := h
        obtain rfl := Except.ok.inj h
        exact .sampler p hdecl hkind helement htype (eq_none_of_allowNone hallow)
      · rename_i t hnumeric htype
        simp only [visitNumeric, bind_eq_ok_iff] at h
        obtain ⟨_, hallow, order, horder, h⟩ := h
        obtain rfl := Except.ok.inj h
        exact .numeric p t order hdecl hkind helement htype (fun heq => hnumeric heq)
          (pinsAtMost_of_allowOnlyOrder hallow) horder

theorem visitOutput_visited {p : Property} (hdecl : i.declaration = .output p)
    (h : visitOutput d i p = .ok d') : Visited ns d i d' := by
  unfold visitOutput at h
  simp only at h
  split at h
  · rename_i t htype helement hsize
    split at h
    · rename_i hpackable
      simp only [bind_eq_ok_iff] at h
      obtain ⟨_, hallow, order, horder, h⟩ := h
      obtain rfl := Except.ok.inj h
      exact .output p t order hdecl helement hsize htype hpackable
        (pinsAtMost_of_allowOnlyOrder hallow) horder
    · simp [Failure.at_] at h
  · simp [Failure.at_] at h

theorem visitVertexFormat_visited {file name : String} {attr : Option Attribute}
    {fields : List Property} (hdecl : i.declaration = .vertexFormat name attr fields)
    (h : visitVertexFormat file d i attr fields = .ok d') : Visited ns d i d' := by
  unfold visitVertexFormat at h
  split at h
  · simp [Failure.at_] at h
  · rename_i hfirst
    have hfirst : d.model.vertexFormat = none := by simpa using hfirst
    simp only [bind_eq_ok_iff, fitting_eq_ok_iff] at h
    obtain ⟨_, hallow, inputs, hinputs, l, hlayout, h⟩ := h
    obtain rfl := Except.ok.inj h
    obtain rfl := eq_none_of_allowNone hallow
    exact .vertexFormat name fields inputs l hdecl hfirst hinputs hlayout

/-- A visit that succeeds does one of the things that are listed. -/
theorem visit_visited {file : String} (h : visit ns file d i = .ok d') : Visited ns d i d' := by
  unfold visit at h
  split at h
  · rename_i hdecl
    exact visitBuffer_visited hdecl h
  · rename_i hdecl
    exact visitConstant_visited hdecl h
  · rename_i hdecl
    exact visitOutput_visited hdecl h
  · rename_i hdecl
    exact visitVertexFormat_visited hdecl h
  · rename_i hdecl
    simp only [bind_eq_ok_iff, stateBlock_eq_ok_iff] at h
    obtain ⟨_, ⟨hkeys, rfl⟩, h⟩ := h
    obtain rfl := Except.ok.inj h
    exact .pipeline _ _ hdecl hkeys
  · rename_i hdecl
    simp only [bind_eq_ok_iff, stateBlock_eq_ok_iff] at h
    obtain ⟨_, ⟨hkeys, rfl⟩, h⟩ := h
    obtain rfl := Except.ok.inj h
    exact .blendFunc _ _ hdecl hkeys

/-! ## All visits -/

/-- A statement of a list introduces something. -/
def Introduces (file : String) (imports : List ResolvedImport) (index : Nat)
    (statements : List Statement) (i : Introduction) : Prop :=
  ∃ k s, statements[k]? = some s ∧ introduction? file imports (index + k) s = .ok (some i)

theorem introduces_cons_iff {file : String} {imports : List ResolvedImport} {index : Nat}
    {s : Statement} {rest : List Statement} :
    Introduces file imports index (s :: rest) i ↔
      introduction? file imports index s = .ok (some i) ∨
        Introduces file imports (index + 1) rest i := by
  have hindex : ∀ k, index + (k + 1) = index + 1 + k := by omega
  constructor
  · rintro ⟨k, t, hk, hi⟩
    cases k with
    | zero =>
      obtain rfl := Option.some.inj hk
      exact Or.inl hi
    | succ k => exact Or.inr ⟨k, t, hk, hindex k ▸ hi⟩
  · rintro (hi | ⟨k, t, hk, hi⟩)
    · exact ⟨0, s, rfl, hi⟩
    · exact ⟨k + 1, t, hk, hindex k ▸ hi⟩

/-- What every visit keeps holds when all statements have been visited. -/
theorem visitAll_induction {file : String} {imports : List ResolvedImport} {P : Draft → Prop}
    {statements : List Statement} {index : Nat} (h0 : P d)
    (hstep : ∀ d i d', P d → Introduces file imports index statements i → Visited ns d i d' → P d')
    (h : visitAll ns file imports index d statements = .ok d') : P d' := by
  induction statements generalizing index d with
  | nil =>
    obtain rfl := Except.ok.inj h
    exact h0
  | cons s rest ih =>
    have hlater : ∀ d i d', P d → Introduces file imports (index + 1) rest i →
        Visited ns d i d' → P d' :=
      fun d i d' hd hi => hstep d i d' hd (introduces_cons_iff.mpr (.inr hi))
    unfold visitAll at h
    rw [bind_eq_ok_iff] at h
    obtain ⟨i?, hi, h⟩ := h
    cases i? with
    | none => exact ih h0 hlater h
    | some i =>
      simp only [bind_eq_ok_iff] at h
      obtain ⟨mid, hvisit, h⟩ := h
      have hmid : P mid :=
        hstep d i mid h0 (introduces_cons_iff.mpr (.inl hi)) (visit_visited hvisit)
      exact ih hmid hlater h

/-- No visit takes a buffer away. -/
theorem Visited.buffers_prefix (h : Visited ns d i d') :
    d.model.buffers <+: d'.model.buffers := by
  cases h with
  | buffer => exact List.prefix_append ..
  | _ => exact List.prefix_rfl

/-- Everything that is introduced is visited, in a draft for which what every visit keeps holds, and
the buffers that the visit leaves stay. -/
theorem visitAll_visited {file : String} {imports : List ResolvedImport} {P : Draft → Prop}
    {statements : List Statement} {index : Nat} (h0 : P d)
    (hstep : ∀ d i d', P d → Introduces file imports index statements i → Visited ns d i d' → P d')
    (h : visitAll ns file imports index d statements = .ok d')
    (hi : Introduces file imports index statements i) :
    ∃ before after, P before ∧ Visited ns before i after ∧
      after.model.buffers <+: d'.model.buffers := by
  induction statements generalizing index d with
  | nil =>
    obtain ⟨k, s, hs, _⟩ := hi
    simp at hs
  | cons s rest ih =>
    have hlater : ∀ d i d', P d → Introduces file imports (index + 1) rest i →
        Visited ns d i d' → P d' :=
      fun d i d' hd hi => hstep d i d' hd (introduces_cons_iff.mpr (.inr hi))
    unfold visitAll at h
    rw [bind_eq_ok_iff] at h
    obtain ⟨first?, hfirst, h⟩ := h
    rcases introduces_cons_iff.mp hi with hi | hi
    · rw [hi] at hfirst
      obtain rfl := Except.ok.inj hfirst
      simp only [bind_eq_ok_iff] at h
      obtain ⟨mid, hvisit, h⟩ := h
      refine ⟨d, mid, h0, visit_visited hvisit, ?_⟩
      exact visitAll_induction (P := fun last => mid.model.buffers <+: last.model.buffers)
        List.prefix_rfl (fun _ _ _ hlast _ hv => hlast.trans hv.buffers_prefix) h
    · cases first? with
      | none => exact ih h0 hlater h hi
      | some first =>
        simp only [bind_eq_ok_iff] at h
        obtain ⟨mid, hvisit, h⟩ := h
        exact ih (hstep d first mid h0 (introduces_cons_iff.mpr (.inl hfirst))
          (visit_visited hvisit))
          hlater h hi

end AnnotatedShader.Model
