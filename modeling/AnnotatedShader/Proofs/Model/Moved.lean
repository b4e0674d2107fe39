import AnnotatedShader.Model.Build
import AnnotatedShader.Proofs.Namespace.Rearranged

set_option autoImplicit false

/-!
# Models in namespaces at other positions

A file has the same model whatever the positions of the declarations that it refers to, and whatever
their order in the files that declare them.  If something is wrong with it, something is wrong with
it either way; only the report may be another one.

`EndAlike` relates the outcomes of a function in both namespaces: both succeed with related results,
or both fail.  It is proved for each function of the build in the order in which they call each
other.  What is related are declarations at other positions (`DeclaredStruct.Moved`,
`Introduction.Moved`) and the drafts that are made of them, whose sampler references keep a position
(`Draft.Moved`).  A check of a list stops at the first fault, and which one that is may depend on
positions, so reports are not compared.
-/

namespace AnnotatedShader

/-- A declared struct at another position. -/
structure DeclaredStruct.Moved (d d' : DeclaredStruct) : Prop where
  id : d'.id = d.id
  fields : List.Forall₂ Property.Moved d.fields d'.fields

/-- The struct of a symbol at another position. -/
theorem Symbol.Moved.struct? {s s' : Symbol} (h : s.Moved s') :
    Option.Rel DeclaredStruct.Moved s.struct? s'.struct? := by
  obtain ⟨file, position, declaration⟩ := s
  obtain ⟨file', position', declaration'⟩ := s'
  obtain ⟨rfl, hdeclaration⟩ := h
  cases hdeclaration with
  | buffer name attr fields fields' hfields => exact .some ⟨rfl, hfields⟩
  | _ => exact .none

theorem Namespace.Moved.struct? {ns ns' : Namespace} (h : ns.Moved ns') (file name : String) :
    Option.Rel DeclaredStruct.Moved ((ns.resolveName file name).bind Symbol.struct?)
      ((ns'.resolveName file name).bind Symbol.struct?) := by
  have hrel := Symbol.rel_moved_of_unsited (h.resolveName file name)
  generalize ns.resolveName file name = s at hrel
  generalize ns'.resolveName file name = s' at hrel
  cases hrel with
  | none => exact .none
  | some hs => exact hs.struct?

namespace Model

/-! ## Structs -/

section Structs

variable {ns ns' : Namespace} (h : ns.Moved ns') {define define' : Definer}
  (hdefine : ∀ defs d d', d.Moved d' → EndAlike (· = ·) (define defs d) (define' defs d'))

include h hdefine

theorem baseType_moved (origin : String) (defs : List StructDef) {p p' : Property}
    (hp : p.Moved p') : EndAlike (· = ·) (baseType ns define origin defs p)
      (baseType ns' define' origin defs p') := by
  obtain ⟨position, rfl⟩ := hp
  unfold baseType
  simp only
  cases ShaderType.ofName? p.type.name with
  | some base =>
    simp only
    split
    · exact .diagnosed _ _
    · exact .rfl
  | none =>
    have hstruct := h.struct? origin p.type.name
    generalize (ns.resolveName origin p.type.name).bind Symbol.struct? = s at hstruct
    generalize (ns'.resolveName origin p.type.name).bind Symbol.struct? = s' at hstruct
    cases hstruct with
    | none => exact .diagnosed _ _
    | some hd =>
      refine (hdefine defs _ _ hd).bind_eq fun grown => ?_
      rw [hd.id]
      exact .rfl

theorem memberType_moved (origin : String) (defs : List StructDef) {p p' : Property}
    (hp : p.Moved p') : EndAlike (· = ·) (memberType ns define origin defs p)
      (memberType ns' define' origin defs p') := by
  have hbase := baseType_moved h hdefine origin defs hp
  obtain ⟨position, rfl⟩ := hp
  unfold memberType
  simp only
  split
  · exact .diagnosed _ _
  · refine hbase.bind_eq fun typed => ?_
    split
    · exact .rfl
    · exact .diagnosed _ _
    · exact .rfl

theorem members_moved (origin owner : String) (seen : List String) (defs : List StructDef)
    {fields fields' : List Property} (hfields : List.Forall₂ Property.Moved fields fields') :
    EndAlike (· = ·) (members ns define origin owner seen defs fields)
      (members ns' define' origin owner seen defs fields') := by
  induction hfields generalizing seen defs with
  | nil => exact .rfl
  | @cons p p' rest rest' hp _ ih =>
    have htype := memberType_moved h hdefine origin defs hp
    obtain ⟨position, rfl⟩ := hp
    unfold members
    simp only
    split
    · exact .diagnosed _ _
    · refine htype.bind_eq fun typed => ?_
      simp only [memberMisuse?]
      split
      · exact .diagnosed _ _
      · exact (ih _ _).bind_eq fun _ => .rfl

omit h hdefine in
theorem checkAligned_moved (structs : StructId → Option Layout) (origin : String)
    (ms : List Member) {fields fields' : List Property}
    (hfields : List.Forall₂ Property.Moved fields fields') :
    EndAlike (· = ·) (checkAligned structs origin (ms.zip fields))
      (checkAligned structs origin (ms.zip fields')) := by
  induction hfields generalizing ms with
  | nil => exact .rfl
  | @cons p p' rest rest' hp _ ih =>
    obtain ⟨position, rfl⟩ := hp
    cases ms with
    | nil => exact .rfl
    | cons m ms =>
      rw [List.zip_cons_cons, List.zip_cons_cons, checkAligned, checkAligned]
      split
      · refine EndAlike.rfl.bind_eq fun e => ?_
        split
        · exact ih ms
        · unfold misaligned
          split
          · exact .diagnosed _ _
          · exact .failed _
      · exact ih ms

theorem structBody_moved (origin owner : String) (defs : List StructDef)
    {fields fields' : List Property} (hfields : List.Forall₂ Property.Moved fields fields') :
    EndAlike (· = ·) (structBody ns define origin owner defs fields)
      (structBody ns' define' origin owner defs fields') := by
  refine (members_moved h hdefine origin owner [] defs hfields).bind_eq fun typed => ?_
  refine EndAlike.rfl.bind_eq fun l => ?_
  exact (checkAligned_moved _ origin _ hfields).bind_eq fun _ => .rfl

end Structs

section Moved

variable {ns ns' : Namespace} (h : ns.Moved ns')

include h

theorem define_moved (fuel : Nat) (underDefinition : List StructId) (defs : List StructDef)
    {d d' : DeclaredStruct} (hd : d.Moved d') :
    EndAlike (· = ·) (define ns fuel underDefinition defs d)
      (define ns' fuel underDefinition defs d') := by
  induction fuel generalizing underDefinition defs d d' with
  | zero =>
    rw [define, define, hd.id]
    split
    · exact .rfl
    · exact .diagnosed _ _
  | succ fuel ih =>
    rw [define, define, hd.id]
    split
    · exact .rfl
    · split
      · exact .diagnosed _ _
      · refine (structBody_moved h ?_ _ _ _ hd.fields).bind_eq fun _ => .rfl
        exact fun defs e e' he => ih _ defs he

theorem defineStruct_moved (defs : List StructDef) {d d' : DeclaredStruct} (hd : d.Moved d') :
    EndAlike (· = ·) (defineStruct ns defs d) (defineStruct ns' defs d') := by
  rw [defineStruct, defineStruct, h.structCount]
  exact define_moved h _ _ defs hd

end Moved

/-! ## Parts of declarations -/

theorem orderOf_moved (origin : String) (position position' : Position)
    (attr : Option Attribute) :
    EndAlike (· = ·) (orderOf origin position attr) (orderOf origin position' attr) := by
  unfold orderOf
  split
  · split
    · exact .diagnosed _ _
    · exact .rfl
  · exact .rfl

theorem allowOnlyOrder_moved (origin : String) (position position' : Position) (bearer : Bearer)
    (name : String) (attr : Option Attribute) :
    EndAlike (· = ·) (allowOnlyOrder origin position bearer name attr)
      (allowOnlyOrder origin position' bearer name attr) := by
  unfold allowOnlyOrder
  split
  · exact .diagnosed _ _
  · exact .diagnosed _ _
  · exact .rfl

theorem allowNone_moved (origin : String) (position position' : Position) (bearer : Bearer)
    (name : String) (attr : Option Attribute) :
    EndAlike (· = ·) (allowNone origin position bearer name attr)
      (allowNone origin position' bearer name attr) := by
  unfold allowNone
  split
  · exact .diagnosed _ _
  · exact .rfl

theorem vertexInputs_moved (origin : String) (seen : List String) {fields fields' : List Property}
    (hfields : List.Forall₂ Property.Moved fields fields') :
    EndAlike (· = ·) (vertexInputs origin seen fields) (vertexInputs origin seen fields') := by
  induction hfields generalizing seen with
  | nil => exact .rfl
  | @cons p p' rest rest' hp _ ih =>
    obtain ⟨position, rfl⟩ := hp
    unfold vertexInputs
    simp only
    split
    · exact .diagnosed _ _
    · split
      · split
        · refine (allowOnlyOrder_moved ..).bind_eq fun _ => ?_
          refine (orderOf_moved ..).bind_eq fun order => ?_
          exact (ih _).bind_eq fun _ => .rfl
        · exact .diagnosed _ _
      · exact .diagnosed _ _

/-! ## Declarations -/

/-- The same introduction of a declaration at other positions. -/
structure Introduction.Moved (i i' : Introduction) : Prop where
  name : i'.name = i.name
  origin : i'.origin = i.origin
  index : i'.index = i.index
  position : i'.position = i.position
  declaration : i.declaration.Moved i'.declaration

theorem distinctKeys_moved (i i' : Introduction) (seen : List String) (entries : List StateEntry) :
    EndAlike (· = ·) (distinctKeys i seen entries) (distinctKeys i' seen entries) := by
  induction entries generalizing seen with
  | nil => exact .rfl
  | cons e rest ih =>
    unfold distinctKeys
    split
    · exact .diagnosed _ _
    · exact ih _

theorem stateBlock_moved {i i' : Introduction} (hi : i.Moved i') (entries : List StateEntry) :
    EndAlike (· = ·) (stateBlock i entries) (stateBlock i' entries) := by
  refine (distinctKeys_moved _ _ [] entries).bind_eq fun _ => ?_
  rw [hi.name, hi.index, hi.position]
  exact .rfl

/-- A reference to a sampler from a texture at another position. -/
def SamplerRef.Moved (r r' : SamplerRef) : Prop := ∃ position, r' = { r with position }

/-- A draft that knows some textures at other positions. -/
structure Draft.Moved (d d' : Draft) : Prop where
  model : d'.model = d.model
  roots : d'.roots = d.roots
  samplerRefs : List.Forall₂ SamplerRef.Moved d.samplerRefs d'.samplerRefs

section Visits

variable {ns ns' : Namespace} (h : ns.Moved ns') {d d' : Draft} (hd : d.Moved d')
  {i i' : Introduction} (hi : i.Moved i')

include h hd hi in
theorem visitBuffer_moved (name : String) (attr : Option Attribute) {fields fields' : List Property}
    (hfields : List.Forall₂ Property.Moved fields fields') :
    EndAlike Draft.Moved (visitBuffer ns d i name attr fields)
      (visitBuffer ns' d' i' name attr fields') := by
  unfold visitBuffer
  rw [hd.model, hi.origin, hi.name, hi.index, hi.position]
  split
  · refine (defineStruct_moved h d.model.structs ?_).bind_eq fun structs => ?_
    · exact ⟨rfl, hfields⟩
    · exact .ok ⟨rfl, hd.roots, hd.samplerRefs⟩
  · exact .diagnosed _ _
  · refine (orderOf_moved ..).bind_eq fun order => ?_
    refine (structBody_moved h (fun defs _ _ hd => defineStruct_moved h defs hd) _ _ _ hfields).bind_eq
      fun body => ?_
    exact .ok ⟨rfl, hd.roots, hd.samplerRefs⟩

include hd hi in
theorem visitConstant_moved {p p' : Property} (hp : p.Moved p') :
    EndAlike Draft.Moved (visitConstant d i p) (visitConstant d' i' p') := by
  obtain ⟨position, rfl⟩ := hp
  unfold visitConstant
  simp only
  split
  · unfold visitTexture
    simp only [hi.name, hi.index, hi.position, hi.origin, hd.model]
    split
    · exact .diagnosed _ _
    · split
      · split
        · refine .ok ⟨rfl, hd.roots, ?_⟩
          exact List.rel_append hd.samplerRefs (.cons ⟨position, rfl⟩ .nil)
        · exact .diagnosed _ _
      · exact .diagnosed _ _
  · split
    · exact .diagnosed _ _
    · split
      · exact .diagnosed _ _
      · unfold visitSampler
        rw [hi.name, hi.index, hi.position, hi.origin, hd.model]
        refine (allowNone_moved ..).bind_eq fun _ => ?_
        exact .ok ⟨rfl, hd.roots, hd.samplerRefs⟩
      · unfold visitNumeric
        rw [hi.name, hi.index, hi.position, hi.origin, hd.roots]
        refine (allowOnlyOrder_moved ..).bind_eq fun _ => ?_
        refine (orderOf_moved ..).bind_eq fun order => ?_
        exact .ok ⟨hd.model, rfl, hd.samplerRefs⟩

include hd hi in
theorem visitOutput_moved {p p' : Property} (hp : p.Moved p') :
    EndAlike Draft.Moved (visitOutput d i p) (visitOutput d' i' p') := by
  obtain ⟨position, rfl⟩ := hp
  unfold visitOutput
  simp only [hi.name, hi.index, hi.position, hi.origin, hd.model]
  split
  · split
    · refine (allowOnlyOrder_moved ..).bind_eq fun _ => ?_
      refine (orderOf_moved ..).bind_eq fun order => ?_
      exact .ok ⟨rfl, hd.roots, hd.samplerRefs⟩
    · exact .diagnosed _ _
  · exact .diagnosed _ _

include hd hi in
theorem visitVertexFormat_moved (file : String) (attr : Option Attribute)
    {fields fields' : List Property} (hfields : List.Forall₂ Property.Moved fields fields') :
    EndAlike Draft.Moved (visitVertexFormat file d i attr fields)
      (visitVertexFormat file d' i' attr fields') := by
  unfold visitVertexFormat
  rw [hi.name, hi.index, hi.position, hi.origin, hd.model]
  split
  · exact .diagnosed _ _
  · refine (allowNone_moved ..).bind_eq fun _ => ?_
    refine (vertexInputs_moved _ _ hfields).bind_eq fun inputs => ?_
    refine EndAlike.rfl.bind_eq fun l => ?_
    exact .ok ⟨rfl, hd.roots, hd.samplerRefs⟩

include h hd hi in
theorem visit_moved (file : String) :
    EndAlike Draft.Moved (visit ns file d i) (visit ns' file d' i') := by
  have hdecl := hi.declaration
  unfold visit
  generalize i.declaration = decl at hdecl
  generalize i'.declaration = decl' at hdecl
  cases hdecl with
  | buffer name attr fields fields' hfields => exact visitBuffer_moved h hd hi name attr hfields
  | constant p p' hp => exact visitConstant_moved hd hi hp
  | output p p' hp => exact visitOutput_moved hd hi hp
  | vertexFormat name attr fields fields' hfields =>
    exact visitVertexFormat_moved hd hi file attr hfields
  | pipeline name entries =>
    refine (stateBlock_moved hi entries).bind_eq fun block => ?_
    rw [hd.model]
    exact .ok ⟨rfl, hd.roots, hd.samplerRefs⟩
  | blendFunc name entries =>
    refine (stateBlock_moved hi entries).bind_eq fun block => ?_
    rw [hd.model]
    exact .ok ⟨rfl, hd.roots, hd.samplerRefs⟩

end Visits

/-! ## Statements -/

variable {ns ns' : Namespace} {imports imports' : List ResolvedImport}

theorem introduction?_moved (himports : List.Forall₂ ResolvedImport.Moved imports imports')
    (file : String) (index : Nat) (s : Statement) :
    EndAlike (Option.Rel Introduction.Moved) (introduction? file imports index s)
      (introduction? file imports' index s) := by
  unfold introduction?
  split
  · exact .ok .none
  · rename_i decl _
    refine .ok (.some ⟨rfl, rfl, rfl, rfl, Declaration.moved_of_unsited ?_⟩)
    rfl
  · rename_i u _
    have hfound : Option.Rel ResolvedImport.Moved
        (imports.find? fun r => r.use == u && r.position == s.position)
        (imports'.find? fun r => r.use == u && r.position == s.position) := by
      induction himports with
      | nil => exact .none
      | @cons r r' rest rest' hr _ ih =>
        rw [List.find?_cons, List.find?_cons, hr.use, hr.position]
        split
        · exact .some hr
        · exact ih
    generalize imports.find? _ = r at hfound
    generalize imports'.find? _ = r' at hfound
    cases hfound with
    | none => exact .failed _
    | some hr => exact .ok (.some ⟨rfl, hr.target.file, rfl, rfl, hr.target.declaration⟩)

theorem isSamplerSymbol_moved {s s' : Symbol} (hs : s.Moved s') :
    isSamplerSymbol s' = isSamplerSymbol s := by
  have hdecl := hs.declaration
  unfold isSamplerSymbol
  generalize s.declaration = decl at hdecl
  generalize s'.declaration = decl' at hdecl
  cases hdecl with
  | constant p p' hp =>
    obtain ⟨position, rfl⟩ := hp
    rfl
  | _ => rfl

section Statements

variable (h : ns.Moved ns')

include h

theorem visitAll_moved (himports : List.Forall₂ ResolvedImport.Moved imports imports')
    (file : String) (index : Nat) {d d' : Draft} (hd : d.Moved d') (statements : List Statement) :
    EndAlike Draft.Moved (visitAll ns file imports index d statements)
      (visitAll ns' file imports' index d' statements) := by
  induction statements generalizing index d d' with
  | nil => exact .ok hd
  | cons s rest ih =>
    unfold visitAll
    refine (introduction?_moved himports file index s).bind fun i i' hi => ?_
    cases hi with
    | none => exact ih _ hd
    | some hi => exact (visit_moved h hd hi file).bind fun _ _ hd => ih _ hd

theorem checkSamplers_moved {refs refs' : List SamplerRef}
    (hrefs : List.Forall₂ SamplerRef.Moved refs refs') :
    EndAlike (· = ·) (checkSamplers ns refs) (checkSamplers ns' refs') := by
  induction hrefs with
  | nil => exact .rfl
  | @cons r r' rest rest' hr _ ih =>
    obtain ⟨position, rfl⟩ := hr
    have hfound := Symbol.rel_moved_of_unsited (h.resolveName r.origin r.sampler)
    rw [checkSamplers, checkSamplers]
    dsimp only
    generalize ns.resolveName r.origin r.sampler = s at hfound
    generalize ns'.resolveName r.origin r.sampler = s' at hfound
    cases hfound with
    | none => exact .diagnosed _ _
    | some hs =>
      dsimp only
      rw [isSamplerSymbol_moved hs]
      split
      · exact ih
      · exact .diagnosed _ _

/-- The model of a file is the same in namespaces at other positions. -/
theorem build_moved (himports : List.Forall₂ ResolvedImport.Moved imports imports') (m : Module)
    (stage : Stage) : EndAlike (· = ·) (build m stage ns imports) (build m stage ns' imports') := by
  refine EndAlike.rfl.bind_eq fun _ => ?_
  refine (visitAll_moved h himports m.file 0 ⟨rfl, rfl, .nil⟩ m.statements).bind fun d d' hd => ?_
  have hroot : ∀ file names, buildRoot file names d' = buildRoot file names d := by
    intro file names
    rw [buildRoot, buildRoot, hd.roots, hd.model]
  rw [hroot]
  refine EndAlike.rfl.bind_eq fun model => ?_
  exact (checkSamplers_moved h hd.samplerRefs).bind_eq fun _ => .rfl

end Statements

end Model

end AnnotatedShader
