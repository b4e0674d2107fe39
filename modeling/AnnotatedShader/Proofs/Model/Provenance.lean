import AnnotatedShader.Proofs.Lists
import AnnotatedShader.Proofs.Model.Build

set_option autoImplicit false

/-!
# Where entities come from

Every vertex format, texture and output of an accepted model is introduced by a statement, and is
what its declaration says.  What is required of them is read off the declaration, without going
through the visits again.

`FormatOf`, `TextureOf` and `OutputOf` relate an entity to its introduction, field by field, and
`Traced` says that all entities of a draft are so related; each visit keeps it.  The inputs of a
vertex format are typed, named and pinned by their properties (`InputOf`), and have distinct names,
which the check of a format has found (`nodup_names_vertexInputs`).
-/

namespace AnnotatedShader.Model

/-! ## Vertex inputs -/

/-- What a property of a vertex format becomes before it is placed. -/
structure InputOf (origin : String) (p : Property) (input : VertexInput) : Prop where
  type : ShaderType.ofName? p.type.name = some input.type
  numeric : input.type.isNumeric = true
  plain : p.type.element = none ∧ p.type.size = none
  attr : PinsAtMost p.attr
  order : orderOf origin p.position p.attr = .ok input.order
  eq : input = ⟨p.name, input.type, p.type.render, input.order, p.index, 0, unassigned⟩

theorem InputOf.locations_pos {origin : String} {p : Property} {input : VertexInput}
    (h : InputOf origin p input) : 0 < input.type.locations := by
  refine ShaderType.locations_pos fun s c heq => ?_
  have htype := heq ▸ h.type
  cases ShaderType.named_of_ofName? htype with
  | matrix _ _ _ hsize => omega

/-- The inputs of a vertex format come from its properties, no two of which have one name. -/
theorem vertexInputs_spec {origin : String} {seen : List String} {fields : List Property}
    {inputs : List VertexInput} (h : vertexInputs origin seen fields = .ok inputs) :
    List.Forall₂ (InputOf origin) fields inputs ∧ (fields.map Property.name).Nodup ∧
      ∀ p ∈ fields, p.name ∉ seen := by
  induction fields generalizing seen inputs with
  | nil =>
    obtain rfl := Except.ok.inj h
    exact ⟨.nil, .nil, by simp⟩
  | cons p rest ih =>
    unfold vertexInputs at h
    simp only at h
    split at h
    · simp [Failure.at_] at h
    · rename_i hseen
      split at h
      · rename_i t htype helement hsize
        split at h
        · rename_i hnumeric
          simp only [bind_eq_ok_iff] at h
          obtain ⟨_, hattr, order, horder, others, hothers, h⟩ := h
          obtain rfl := Except.ok.inj h
          obtain ⟨hinputs, hnodup, hrest⟩ := ih hothers
          refine ⟨.cons ?_ hinputs, ?_, List.forall_mem_cons.mpr ⟨by simpa using hseen, ?_⟩⟩
          · exact ⟨htype, hnumeric, ⟨helement, hsize⟩, pinsAtMost_of_allowOnlyOrder hattr, horder,
              rfl⟩
          · refine List.nodup_cons.mpr ⟨fun hmem => ?_, hnodup⟩
            obtain ⟨q, hq, hname⟩ := List.mem_map.mp hmem
            exact hrest q hq (hname ▸ List.mem_cons_self)
          · exact fun q hq hmem => hrest q hq (List.mem_cons_of_mem _ hmem)
        · simp [Failure.at_] at h
      · simp [Failure.at_] at h

theorem vertexInputs_names {origin : String} {seen : List String} {fields : List Property}
    {inputs : List VertexInput} (h : vertexInputs origin seen fields = .ok inputs) :
    inputs.map VertexInput.name = fields.map Property.name :=
  map_eq_of_forall₂ (vertexInputs_spec h).1 fun _ _ hinput => by rw [hinput.eq]

theorem nodup_names_vertexInputs {origin : String} {seen : List String} {fields : List Property}
    {inputs : List VertexInput} (h : vertexInputs origin seen fields = .ok inputs) :
    (inputs.map VertexInput.name).Nodup := vertexInputs_names h ▸ (vertexInputs_spec h).2.1

/-- Every input of a vertex format comes from a property. -/
theorem exists_inputOf {origin : String} {seen : List String} {fields : List Property}
    {inputs : List VertexInput} (h : vertexInputs origin seen fields = .ok inputs)
    {input : VertexInput} (hinput : input ∈ inputs) : ∃ p ∈ fields, InputOf origin p input :=
  exists_left_of_forall₂ (vertexInputs_spec h).1 hinput

/-- A placed input is an input with an offset. -/
theorem exists_of_mem_placeInputs {inputs : List VertexInput} {l : Layout} {i : VertexInput}
    (h : i ∈ placeInputs inputs l) : ∃ input ∈ inputs, ∃ offset, i = { input with offset } := by
  rw [placeInputs, ← List.map_uncurry_zip_eq_zipWith] at h
  obtain ⟨⟨input, place⟩, hzip, rfl⟩ := List.mem_map.mp h
  exact ⟨input, (List.of_mem_zip hzip).1, place.offset, rfl⟩

theorem names_placeInputs (inputs : List VertexInput) (l : Layout) :
    (placeInputs inputs l).map VertexInput.name <+: inputs.map VertexInput.name := by
  rw [placeInputs]
  apply map_zipWith_isPrefix
  exact fun _ _ => rfl

/-! ## Entities -/

/-- The vertex format that a statement introduces. -/
structure FormatOf (i : Introduction) (vf : VertexFormat) : Prop where
  source : ∃ name fields inputs l, i.declaration = .vertexFormat name none fields ∧
    vertexInputs i.origin [] fields = .ok inputs ∧
    Layout.Vertex.ofFields (inputs.map fun input => ⟨input.name, input.type, false⟩) = .ok l ∧
    vf = ⟨i.name, placeInputs inputs l, l.size, i.index, i.origin, i.position⟩

/-- The texture that a statement introduces. -/
structure TextureOf (i : Introduction) (t : Texture) : Prop where
  source : ∃ p element, i.declaration = .constant p ∧ p.type.element = some element ∧
    ShaderType.ofTextureName? p.type.name element = some t.type ∧ p.type.size = none ∧
    p.attr = some (.sampler t.sampler) ∧
    t = ⟨i.name, t.type, p.type.render, t.sampler, i.index, i.position, unassigned⟩

/-- The output that a statement introduces. -/
structure OutputOf (i : Introduction) (out : Output) : Prop where
  source : ∃ p, i.declaration = .output p ∧ p.type.element = none ∧ p.type.size = none ∧
    ShaderType.ofName? p.type.name = some out.type ∧ out.type.isPackable = true ∧
    PinsAtMost p.attr ∧ orderOf i.origin p.position p.attr = .ok out.order ∧
    out = ⟨i.name, out.type, p.type.render, out.order, i.index, i.position, unassigned⟩

theorem FormatOf.name {i : Introduction} {vf : VertexFormat} (h : FormatOf i vf) :
    vf.name = i.name := by
  obtain ⟨_, _, _, _, _, _, _, rfl⟩ := h.source
  rfl

theorem FormatOf.nodup_names {i : Introduction} {vf : VertexFormat} (h : FormatOf i vf) :
    (vf.inputs.map VertexInput.name).Nodup := by
  obtain ⟨_, _, inputs, l, _, hinputs, _, rfl⟩ := h.source
  exact (nodup_names_vertexInputs hinputs).sublist (names_placeInputs inputs l).sublist

/-- The inputs of a vertex format come from its properties. -/
theorem FormatOf.exists_inputOf {i : Introduction} {vf : VertexFormat} (h : FormatOf i vf)
    {input : VertexInput} (hinput : input ∈ vf.inputs) :
    ∃ name fields, i.declaration = .vertexFormat name none fields ∧ ∃ p ∈ fields, ∃ raw offset,
      InputOf i.origin p raw ∧ input = { raw with offset } := by
  obtain ⟨name, fields, inputs, l, hdecl, hinputs, _, rfl⟩ := h.source
  obtain ⟨raw, hraw, offset, rfl⟩ := exists_of_mem_placeInputs hinput
  obtain ⟨p, hp, hof⟩ := Model.exists_inputOf hinputs hraw
  exact ⟨name, fields, hdecl, p, hp, raw, offset, hof, rfl⟩

/-- The vertex format, the textures and the outputs of a model are introduced by statements. -/
structure Traced (Source : Introduction → Prop) (model : Model) : Prop where
  format : ∀ vf, model.vertexFormat = some vf → ∃ i, Source i ∧ FormatOf i vf
  textures : ∀ t ∈ model.textures, ∃ i, Source i ∧ TextureOf i t
  outputs : ∀ out ∈ model.outputs, ∃ i, Source i ∧ OutputOf i out

theorem Traced.visit {ns : Namespace} {Source : Introduction → Prop} {d d' : Draft}
    {i : Introduction} (h : Traced Source d.model) (hi : Source i) (hv : Visited ns d i d') :
    Traced Source d'.model := by
  cases hv with
  | vertexFormat name fields inputs l hdecl hfirst hinputs hlayout =>
    refine { h with format := ?_ }
    intro vf hvf
    obtain rfl := Option.some.inj hvf
    exact ⟨i, hi, name, fields, inputs, l, hdecl, hinputs, hlayout, rfl⟩
  | texture p element sampler t hdecl hkind helement htype hsize hattr =>
    refine { h with textures := List.forall_mem_append.mpr ⟨h.textures, ?_⟩ }
    exact List.forall_mem_singleton.mpr
      ⟨i, hi, p, element, hdecl, helement, htype, hsize, hattr, rfl⟩
  | output p t order hdecl helement hsize htype hpackable hattr horder =>
    refine { h with outputs := List.forall_mem_append.mpr ⟨h.outputs, ?_⟩ }
    exact List.forall_mem_singleton.mpr
      ⟨i, hi, p, hdecl, helement, hsize, htype, hpackable, hattr, horder, rfl⟩
  | _ => exact ⟨h.format, h.textures, h.outputs⟩

section Built

variable {m : Module} {stage : Stage} {ns : Namespace} {imports : List ResolvedImport}
  {model : Model} (h : build m stage ns imports = .ok model)

include h

theorem build_traced : Traced (Introduces m.file imports 0 m.statements) model := by
  obtain ⟨_, d, hvisit, hroot, _⟩ := build_eq_ok h
  have hd := visitAll_induction (P := fun d => Traced _ d.model)
    ⟨by simp [empty], by simp [empty], by simp [empty]⟩
    (fun _ _ _ hd hi hv => hd.visit hi hv) hvisit
  cases hroot <;> exact ⟨hd.format, hd.textures, hd.outputs⟩

/-- The inputs of the vertex format of an accepted model have distinct names, and each takes a
location. -/
theorem build_inputs : ∀ vf, model.vertexFormat = some vf →
    (vf.inputs.map VertexInput.name).Nodup ∧ ∀ i ∈ vf.inputs, 0 < i.type.locations := by
  intro vf hvf
  obtain ⟨i, _, hformat⟩ := (build_traced h).format vf hvf
  refine ⟨hformat.nodup_names, fun input hinput => ?_⟩
  obtain ⟨_, _, _, p, _, raw, _, hof, rfl⟩ := hformat.exists_inputOf hinput
  exact hof.locations_pos

end Built

end AnnotatedShader.Model
