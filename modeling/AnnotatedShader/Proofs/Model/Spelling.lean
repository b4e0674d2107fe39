import AnnotatedShader.Proofs.Model.Emittable
import AnnotatedShader.Proofs.Model.Introduction
import AnnotatedShader.Proofs.Statement.Spelling

set_option autoImplicit false

/-!
# Spellings of a model

The names in a model come from statements, its own and those of the files that it imports from, or
are those of their members.  So they are identifiers when those are, whatever slots are filled in.

`Model.Spelled` goes through all entities and their members, with the names of types among them,
since a struct type is declared under its name.  The names of a module are spelled because they are
tokens (`Module.Spelled`), those of members by the bodies of structs, and the rest by where entities
come from.  Generated texts have no marks for this reason.
-/

namespace AnnotatedShader

/-- All names in a declaration are identifiers. -/
def Declaration.Spelled (d : Declaration) : Prop := ∀ name ∈ d.names, Worded name

/-- What an accepted file exports is declared by one of the files. -/
theorem Symbol.spelled_of_lookup {ms : List Module} (hms : ∀ m ∈ ms, m.Spelled)
    {file name : String} {sym : Symbol}
    (h : (Namespace.ofModules ms).lookup file name = some sym) : sym.declaration.Spelled := by
  obtain ⟨_, _, m, hm, _, hdeclared⟩ := Namespace.lookup_ofModules_eq_some h
  obtain ⟨s, hs, hbody⟩ := List.mem_filterMap.mp hdeclared
  have hspelled := hms m hm s hs
  split at hbody
  · rename_i d heq
    obtain ⟨rfl, _⟩ := Prod.mk.inj (Option.some.inj hbody)
    rwa [heq] at hspelled
  · contradiction

namespace ShaderType

/-- The struct that a type refers to, if it does, has an identifier for its name. -/
def Spelled : ShaderType → Prop
  | .struct id => Worded id.name
  | .array _ element _ => element.Spelled
  | _ => True

theorem spelled_of_isNumeric {t : ShaderType} (h : t.isNumeric = true) : t.Spelled := by
  cases t with
  | scalar | vector | matrix => trivial
  | _ => simp [isNumeric] at h

theorem spelled_of_ofTextureName? {kind element : String} {t : ShaderType}
    (h : ofTextureName? kind element = some t) : t.Spelled := by
  simp only [ofTextureName?, Option.bind_eq_bind, Option.bind_eq_some_iff] at h
  obtain ⟨kind, _, element, _, h⟩ := h
  split at h
  · rw [← Option.some.inj h]
    trivial
  · contradiction

end ShaderType

namespace Model

/-- A typed name is spelled when the name and that of its type are identifiers. -/
def SpelledAs (name : String) (type : ShaderType) : Prop := Worded name ∧ type.Spelled

/-- All names in a model are identifiers. -/
structure Spelled (m : Model) : Prop where
  format : ∀ vf, m.vertexFormat = some vf → Worded vf.name ∧ ∀ i ∈ vf.inputs,
    SpelledAs i.name i.type
  buffers : ∀ b ∈ m.buffers, Worded b.name ∧ ∀ mem ∈ b.members, SpelledAs mem.name mem.type
  structs : ∀ d ∈ m.structs, Worded d.id.name ∧ ∀ mem ∈ d.members, SpelledAs mem.name mem.type
  textures : ∀ t ∈ m.textures, SpelledAs t.name t.type
  outputs : ∀ out ∈ m.outputs, SpelledAs out.name out.type

/-! ## Slots -/

theorem spelled_unslotted_iff {m : Model} : m.unslotted.Spelled ↔ m.Spelled := by
  have hformat : (∀ vf, m.unslotted.vertexFormat = some vf →
        Worded vf.name ∧ ∀ i ∈ vf.inputs, SpelledAs i.name i.type) ↔
      ∀ vf, m.vertexFormat = some vf → Worded vf.name ∧ ∀ i ∈ vf.inputs,
        SpelledAs i.name i.type := by
    cases hvf : m.vertexFormat <;> simp [unslotted, hvf]
  have hbuffers : (∀ b ∈ m.unslotted.buffers,
        Worded b.name ∧ ∀ mem ∈ b.members, SpelledAs mem.name mem.type) ↔
      ∀ b ∈ m.buffers, Worded b.name ∧ ∀ mem ∈ b.members, SpelledAs mem.name mem.type :=
    List.forall_mem_map
  have htextures : (∀ t ∈ m.unslotted.textures, SpelledAs t.name t.type) ↔
      ∀ t ∈ m.textures, SpelledAs t.name t.type := List.forall_mem_map
  have houtputs : (∀ out ∈ m.unslotted.outputs, SpelledAs out.name out.type) ↔
      ∀ out ∈ m.outputs, SpelledAs out.name out.type := List.forall_mem_map
  constructor
  · intro h
    exact ⟨hformat.mp h.format, hbuffers.mp h.buffers, h.structs, htextures.mp h.textures,
      houtputs.mp h.outputs⟩
  · intro h
    exact ⟨hformat.mpr h.format, hbuffers.mpr h.buffers, h.structs, htextures.mpr h.textures,
      houtputs.mpr h.outputs⟩

theorem Spelled.of_unslotted_eq {m m' : Model} (h : m.Spelled) (heq : m'.unslotted = m.unslotted) :
    m'.Spelled := by
  rw [← spelled_unslotted_iff, heq, spelled_unslotted_iff]
  exact h

/-! ## Members -/

/-- The names in an introduction are identifiers. -/
structure Introduction.Spelled (i : Introduction) : Prop where
  name : Worded i.name
  declaration : i.declaration.Spelled

/-- A declared struct whose name and fields are identifiers. -/
def WordedStruct (d : DeclaredStruct) : Prop := Worded d.id.name ∧ ∀ p ∈ d.fields, Worded p.name

theorem spelled_of_writtenType? {ns : Namespace} (hns : CoversNames ns WordedStruct)
    {origin : String} {t : TypeRef} {type : ShaderType} (h : writtenType? ns origin t = some type) :
    type.Spelled := by
  obtain ⟨base, hbase, htype⟩ := writtenType?_cases h
  have hspelled : base.Spelled := by
    unfold namedType? at hbase
    split at hbase
    · rename_i hname
      split at hbase
      · contradiction
      · rw [← Option.some.inj hbase]
        cases ShaderType.named_of_ofName? hname <;> trivial
    · obtain ⟨d, hd, rfl⟩ := Option.map_eq_some_iff.mp hbase
      exact (hns origin t.name d hd).1
  rcases htype with rfl | ⟨_, _, rfl⟩
  · exact hspelled
  · exact hspelled

theorem Body.spelled {ns : Namespace} (hns : CoversNames ns WordedStruct) {origin : String}
    {defs : List StructDef} {fields : List Property} {raw : List Member} {l : Layout}
    (h : Body ns origin defs fields raw l) (hfields : ∀ p ∈ fields, Worded p.name) :
    ∀ mem ∈ placeMembers raw l, SpelledAs mem.name mem.type := by
  intro mem hmem
  obtain ⟨r, hr, _, _, rfl⟩ := exists_of_mem_placeMembers hmem
  obtain ⟨p, hp, hof⟩ := exists_left_of_forall₂ h.typed hr
  refine ⟨?_, spelled_of_writtenType? hns hof.type⟩
  rw [hof.eq]
  exact hfields p hp

theorem RootOf.spelled {i : Introduction} {r : RootConstant} (h : RootOf i r) (hi : i.Spelled) :
    SpelledAs r.member.name r.member.type := by
  obtain ⟨p, t, order, _, _, _, htype, _, _, _, rfl⟩ := h.source
  have hspelled : t.Spelled := by
    cases ShaderType.named_of_ofName? htype <;> trivial
  refine ⟨hi.name, ?_⟩
  dsimp only
  split <;> exact hspelled

theorem FormatOf.spelled {i : Introduction} {vf : VertexFormat} (h : FormatOf i vf)
    (hi : i.Spelled) : Worded vf.name ∧ ∀ input ∈ vf.inputs, SpelledAs input.name input.type := by
  refine ⟨h.name ▸ hi.name, fun input hinput => ?_⟩
  obtain ⟨name, fields, hdecl, p, hp, raw, offset, hof, rfl⟩ := h.exists_inputOf hinput
  have hname : p.name ∈ i.declaration.names := by
    rw [hdecl]
    exact List.mem_cons_of_mem _ (List.mem_map_of_mem hp)
  rw [hof.eq]
  exact ⟨hi.declaration _ hname, ShaderType.spelled_of_isNumeric hof.numeric⟩

theorem TextureOf.spelled {i : Introduction} {t : Texture} (h : TextureOf i t) (hi : i.Spelled) :
    SpelledAs t.name t.type := by
  obtain ⟨p, element, _, _, htype, _, _, heq⟩ := h.source
  rw [heq]
  exact ⟨hi.name, ShaderType.spelled_of_ofTextureName? htype⟩

theorem OutputOf.spelled {i : Introduction} {out : Output} (h : OutputOf i out) (hi : i.Spelled) :
    SpelledAs out.name out.type := by
  obtain ⟨p, _, _, _, _, hpackable, _, _, heq⟩ := h.source
  rw [heq]
  exact ⟨hi.name, ShaderType.spelled_of_isNumeric (ShaderType.isNumeric_of_isPackable hpackable)⟩

/-! ## Modules -/

section Modules

variable {ms : List Module} (hms : ∀ m ∈ ms, m.Spelled)

include hms

theorem spelled_of_introduces {m : Module} (hm : m.Spelled) {imports : List ResolvedImport}
    (himports : m.resolveImports (Namespace.ofModules ms) = .ok imports) {i : Introduction}
    (hi : Introduces m.file imports 0 m.statements i) : i.Spelled := by
  obtain ⟨k, s, hs, hby⟩ := hi.introducedBy
  have hspelled := hm s hs
  cases hby with
  | declare d hbody =>
    rw [hbody] at hspelled
    exact ⟨hspelled d.name List.mem_cons_self, hspelled⟩
  | use r hbody hmem =>
    rw [hbody] at hspelled
    obtain ⟨entry, _, hresolves⟩ :=
      exists_left_of_forall₂ (Module.resolveImports_eq_ok himports).2 hmem
    exact ⟨hspelled r.use.name List.mem_cons_self, Symbol.spelled_of_lookup hms hresolves.lookup⟩

omit hms in
theorem wordedStruct_of_spelled {name origin : String} {attr : Option Attribute}
    {fields : List Property} (h : (Declaration.buffer name attr fields).Spelled)
    (position : Position) : WordedStruct ⟨⟨name, origin⟩, position, fields⟩ := by
  have hnames : Worded name ∧ ∀ field ∈ fields.map Property.name, Worded field :=
    List.forall_mem_cons.mp h
  exact ⟨hnames.1, List.forall_mem_map.mp hnames.2⟩

theorem coversNames_worded : CoversNames (Namespace.ofModules ms) WordedStruct := by
  intro origin name d h
  obtain ⟨sym, hresolve, hstruct⟩ := Option.bind_eq_some_iff.mp h
  have hspelled := Symbol.spelled_of_lookup hms (Namespace.lookup_of_resolveName hresolve)
  unfold Symbol.struct? at hstruct
  split at hstruct
  · rename_i name attr fields hdecl
    obtain rfl := Option.some.inj hstruct
    exact wordedStruct_of_spelled (hdecl ▸ hspelled) sym.position
  · contradiction

/-- The names in a model that is built are identifiers, when those in the statements of all files
are. -/
theorem build_spelled {m : Module} (hm : m.Spelled) {stage : Stage} {imports : List ResolvedImport}
    (himports : m.resolveImports (Namespace.ofModules ms) = .ok imports) {model : Model}
    (h : build m stage (Namespace.ofModules ms) imports = .ok model) : model.Spelled := by
  have hintroduced := fun i => spelled_of_introduces hms hm himports (i := i)
  have hstructs : CoversStructs WordedStruct (Introduces m.file imports 0 m.statements) := by
    intro i hi name attr fields hdecl
    exact wordedStruct_of_spelled (hdecl ▸ (hintroduced i hi).declaration) i.declared
  have hcovers := coversNames_worded hms
  have haccepted := build_accepted hcovers hstructs h
  have htraced := build_traced h
  have hformat : ∀ vf, model.vertexFormat = some vf →
      Worded vf.name ∧ ∀ input ∈ vf.inputs, SpelledAs input.name input.type := by
    intro vf hvf
    obtain ⟨i, hi, hof⟩ := htraced.format vf hvf
    exact hof.spelled (hintroduced i hi)
  have htextures : ∀ t ∈ model.textures, SpelledAs t.name t.type := by
    intro t ht
    obtain ⟨i, hi, hof⟩ := htraced.textures t ht
    exact hof.spelled (hintroduced i hi)
  have houtputs : ∀ out ∈ model.outputs, SpelledAs out.name out.type := by
    intro out hout
    obtain ⟨i, hi, hof⟩ := htraced.outputs out hout
    exact hof.spelled (hintroduced i hi)
  have hbuffers : ∀ b ∈ model.buffers,
      Worded b.name ∧ ∀ mem ∈ b.members, SpelledAs mem.name mem.type := by
    intro b hb
    rcases haccepted.buffers b hb with ⟨i, hi, hof⟩ | ⟨roots, hroots, _, hsource⟩
    · obtain ⟨name, attr, fields, order, raw, hdecl, _, _, hbody, heq⟩ := hof.source
      rw [heq]
      exact ⟨(hintroduced i hi).name,
        hbody.spelled hcovers (hstructs i hi name attr fields hdecl).2⟩
    · obtain ⟨first, rest, _, heq⟩ := hroots.eq
      rw [heq]
      have hrootName : Worded rootName := .of_all rfl rfl
      refine ⟨hrootName, fun mem hplaced => ?_⟩
      obtain ⟨_, hmem, _, _, rfl⟩ := exists_of_mem_placeMembers hplaced
      obtain ⟨r, hr, rfl⟩ := List.mem_map.mp hmem
      obtain ⟨i, hi, hof⟩ := hsource r hr
      exact hof.spelled (hintroduced i hi)
  have hmembers : ∀ s ∈ model.structs,
      Worded s.id.name ∧ ∀ mem ∈ s.members, SpelledAs mem.name mem.type := by
    intro s hs
    obtain ⟨decl, raw, hknown, hid, hbody, hplaced⟩ := haccepted.structs.body hs
    rw [hplaced, ← hid]
    rw [← hid] at hbody
    exact ⟨hknown.1, hbody.spelled hcovers hknown.2⟩
  exact ⟨hformat, hbuffers, hmembers, htextures, houtputs⟩

end Modules

end Model

end AnnotatedShader
