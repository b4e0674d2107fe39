import AnnotatedShader.Proofs.Model.Provenance
import AnnotatedShader.Proofs.Slot.Unslotted

set_option autoImplicit false

/-!
# Models that can be emitted

A model can be emitted when every type in it has a name in GLSL and every struct that it refers to
is among its own.  Every model that is built is one (`build_emittable`), and slots have no part in
it.

A type that has a name of the language has one in GLSL, samplers apart, which are types of no
declaration.  Structs that members refer to have been defined before the member is placed, and
definitions are only ever added, so they are still there when the text is generated.  The failures
of generation and the origin of declarations rest on this.
-/

namespace AnnotatedShader

open AnnotatedShader.Layout

namespace ShaderType

/-- A type has a name in GLSL. -/
def HasGlslName (t : ShaderType) : Prop := ∃ name, t.glslName = .ok name

theorem hasGlslName_of_isNumeric {t : ShaderType} (h : t.isNumeric = true) : t.HasGlslName := by
  cases t with
  | scalar | vector | matrix => exact ⟨_, rfl⟩
  | _ => simp [isNumeric] at h

theorem isNumeric_of_isPackable {t : ShaderType} (h : t.isPackable = true) :
    t.isNumeric = true := by
  cases t with
  | scalar | vector => rfl
  | _ => simp [isPackable] at h

theorem hasGlslName_of_ofTextureName? {kind element : String} {t : ShaderType}
    (h : ofTextureName? kind element = some t) : t.HasGlslName := by
  simp only [ofTextureName?, Option.bind_eq_bind, Option.bind_eq_some_iff] at h
  obtain ⟨kind, _, element, _, h⟩ := h
  split at h
  · exact ⟨_, by rw [← Option.some.inj h]; rfl⟩
  · contradiction

end ShaderType

namespace Model

/-- A type can be declared beside structs: it has a name, and if it is a struct or an array of one,
it is among them. -/
structure Declarable (structs : List StructDef) (t : ShaderType) : Prop where
  named : t.HasGlslName
  defined : ∀ id, t.structId? = some id → id ∈ structs.map StructDef.id

/-- Every type of a model can be declared beside its structs. -/
structure Emittable (m : Model) : Prop where
  inputs : ∀ vf, m.vertexFormat = some vf → ∀ i ∈ vf.inputs, i.type.HasGlslName
  buffers : ∀ b ∈ m.buffers, ∀ mem ∈ b.members, Declarable m.structs mem.type
  structs : ∀ d ∈ m.structs, (∀ mem ∈ d.members, Declarable m.structs mem.type) ∧
    ∀ id ∈ d.dependencies, id ∈ m.structs.map StructDef.id
  textures : ∀ t ∈ m.textures, t.type.HasGlslName
  outputs : ∀ out ∈ m.outputs, out.type.HasGlslName

/-! ## Slots -/

theorem emittable_unslotted_iff {m : Model} : m.unslotted.Emittable ↔ m.Emittable := by
  have hinputs : (∀ vf, m.unslotted.vertexFormat = some vf → ∀ i ∈ vf.inputs, i.type.HasGlslName) ↔
      ∀ vf, m.vertexFormat = some vf → ∀ i ∈ vf.inputs, i.type.HasGlslName := by
    cases hvf : m.vertexFormat <;> simp [unslotted, hvf]
  have hbuffers : (∀ b ∈ m.unslotted.buffers, ∀ mem ∈ b.members, Declarable m.structs mem.type) ↔
      ∀ b ∈ m.buffers, ∀ mem ∈ b.members, Declarable m.structs mem.type := List.forall_mem_map
  have htextures : (∀ t ∈ m.unslotted.textures, t.type.HasGlslName) ↔
      ∀ t ∈ m.textures, t.type.HasGlslName := List.forall_mem_map
  have houtputs : (∀ out ∈ m.unslotted.outputs, out.type.HasGlslName) ↔
      ∀ out ∈ m.outputs, out.type.HasGlslName := List.forall_mem_map
  constructor
  · intro h
    exact ⟨hinputs.mp h.inputs, hbuffers.mp h.buffers, h.structs, htextures.mp h.textures,
      houtputs.mp h.outputs⟩
  · intro h
    exact ⟨hinputs.mpr h.inputs, hbuffers.mpr h.buffers, h.structs, htextures.mpr h.textures,
      houtputs.mpr h.outputs⟩

theorem Emittable.of_unslotted_eq {m m' : Model} (h : m.Emittable)
    (heq : m'.unslotted = m.unslotted) : m'.Emittable := by
  rw [← emittable_unslotted_iff, heq, emittable_unslotted_iff]
  exact h

/-! ## Structs and buffers -/

theorem MemberType.hasGlslName {t : ShaderType} (h : MemberType t) : t.HasGlslName := by
  cases h <;> exact ⟨_, rfl⟩

theorem hasGlslName_of_writtenType? {ns : Namespace} {origin : String} {t : TypeRef}
    {type : ShaderType} (h : writtenType? ns origin t = some type) : type.HasGlslName := by
  obtain ⟨base, hbase, rfl | ⟨n, _, rfl⟩⟩ := writtenType?_cases h
  · exact (memberType_of_namedType? hbase).hasGlslName
  · exact (memberType_of_namedType? hbase).hasGlslName

/-- What holds of the types of members holds of those that are placed. -/
theorem forall_placeMembers {P : ShaderType → Prop} {raw : List Member} {l : Layout}
    (h : ∀ mem ∈ raw, P mem.type) : ∀ mem ∈ placeMembers raw l, P mem.type := by
  intro mem hmem
  obtain ⟨r, hr, _, _, rfl⟩ := exists_of_mem_placeMembers hmem
  exact h r hr

/-- The members of a body can be declared beside the structs that it is over. -/
theorem Body.declarable {ns : Namespace} {origin : String} {defs : List StructDef}
    {fields : List Property} {raw : List Member} {l : Layout}
    (h : Body ns origin defs fields raw l) :
    ∀ mem ∈ placeMembers raw l, Declarable defs mem.type := by
  refine forall_placeMembers fun mem hmem => ⟨?_, h.known mem hmem⟩
  obtain ⟨p, _, hp⟩ := exists_left_of_forall₂ h.typed hmem
  exact hasGlslName_of_writtenType? hp.type

theorem Derived.dependencies {ns : Namespace} {Known : DeclaredStruct → Prop}
    {defs : List StructDef} (h : Derived ns Known defs) :
    ∀ d ∈ defs, d.dependencies = dependenciesOf d.members := by
  induction h with
  | nil => simp
  | snoc _ hlast ih =>
    intro d hd
    rcases List.mem_append.mp hd with hd | hd
    · exact ih d hd
    · rw [List.mem_singleton.mp hd]
      exact hlast.dependencies

/-- A constant outside all structs is a number or an array of numbers. -/
theorem RootOf.declarable {i : Introduction} {r : RootConstant} (h : RootOf i r)
    (structs : List StructDef) : Declarable structs r.member.type := by
  obtain ⟨p, t, order, _, _, _, htype, hnumeric, _, _, rfl⟩ := h.source
  have hnamed : t.HasGlslName ∧ ∀ id, t ≠ .struct id := by
    cases ShaderType.named_of_ofName? htype with
    | sampler => exact absurd rfl hnumeric
    | _ => exact ⟨⟨_, rfl⟩, fun id => by simp⟩
  have hplain : t.structId? = none := by
    cases ShaderType.named_of_ofName? htype <;> rfl
  dsimp only
  split
  · refine ⟨hnamed.1, fun id hid => ?_⟩
    unfold ShaderType.structId? at hid
    split at hid
    · simp_all
    · rename_i heq
      exact absurd (ShaderType.array.inj heq).2.1 (hnamed.2 _)
    · contradiction
  · refine ⟨hnamed.1, fun id hid => ?_⟩
    rw [hplain] at hid
    contradiction

/-! ## Models that are built -/

/-- Every model that is built can be emitted. -/
theorem build_emittable {m : Module} {stage : Stage} {ns : Namespace}
    {imports : List ResolvedImport} {model : Model} (h : build m stage ns imports = .ok model) :
    model.Emittable := by
  have haccepted := accepted_of_build h
  have htraced := build_traced h
  have hinputs : ∀ vf, model.vertexFormat = some vf → ∀ i ∈ vf.inputs, i.type.HasGlslName := by
    intro vf hvf input hinput
    obtain ⟨i, _, hformat⟩ := htraced.format vf hvf
    obtain ⟨_, _, _, p, _, raw, _, hof, rfl⟩ := hformat.exists_inputOf hinput
    exact ShaderType.hasGlslName_of_isNumeric hof.numeric
  have htextures : ∀ t ∈ model.textures, t.type.HasGlslName := by
    intro t ht
    obtain ⟨i, _, htexture⟩ := htraced.textures t ht
    obtain ⟨p, element, _, _, htype, _⟩ := htexture.source
    exact ShaderType.hasGlslName_of_ofTextureName? htype
  have houtputs : ∀ out ∈ model.outputs, out.type.HasGlslName := by
    intro out hout
    obtain ⟨i, _, houtput⟩ := htraced.outputs out hout
    obtain ⟨p, _, _, _, _, hpackable, _⟩ := houtput.source
    exact ShaderType.hasGlslName_of_isNumeric (ShaderType.isNumeric_of_isPackable hpackable)
  have hbuffers : ∀ b ∈ model.buffers, ∀ mem ∈ b.members, Declarable model.structs mem.type := by
    intro b hb
    rcases haccepted.buffers b hb with ⟨i, _, hi⟩ | ⟨roots, hroots, _, hsource⟩
    · obtain ⟨name, attr, fields, order, raw, _, _, _, hbody, heq⟩ := hi.source
      rw [heq]
      exact hbody.declarable
    · obtain ⟨first, rest, _, heq⟩ := hroots.eq
      rw [heq]
      refine forall_placeMembers fun mem hmem => ?_
      obtain ⟨r, hr, rfl⟩ := List.mem_map.mp hmem
      obtain ⟨i, _, hi⟩ := hsource r hr
      exact hi.declarable model.structs
  have hdefined : ∀ s ∈ model.structs, (∀ mem ∈ s.members, Declarable model.structs mem.type) ∧
      ∀ id ∈ s.dependencies, id ∈ model.structs.map StructDef.id := by
    intro s hs
    obtain ⟨decl, raw, _, _, hbody, hplaced⟩ := haccepted.structs.body hs
    have hmembers : ∀ mem ∈ s.members, Declarable model.structs mem.type :=
      hplaced ▸ hbody.declarable
    refine ⟨hmembers, fun id hid => ?_⟩
    rw [haccepted.structs.dependencies s hs, dependenciesOf, List.mem_eraseDups] at hid
    obtain ⟨mem, hmem, hstruct⟩ := List.mem_filterMap.mp hid
    exact (hmembers mem hmem).defined id hstruct
  exact ⟨hinputs, hbuffers, hdefined, htextures, houtputs⟩

end Model

end AnnotatedShader
