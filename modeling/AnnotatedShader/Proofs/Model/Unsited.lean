import AnnotatedShader.Model.Build
import AnnotatedShader.Namespace.Basic
import Mathlib.Data.List.Forall2

set_option autoImplicit false

/-!
# What is left without positions

What statements declare does not depend on where they stand.  This file has the vocabulary for that:
statements without their positions, and models without the statements that their entities belong to.

`unsited` takes positions, or indices and positions, out of a declaration, a symbol, an entity or a
model, and leaves all else.  `Moved` is the relation between two declarations that are equal without
them, told by their parts, which is the form that a walk through the build can use.
`Model.Rearranged` says when two models have the same contents: equal without sites, but for the
order of structs and samplers.
-/

/-!
## Statements without their positions

What is left of properties, declarations, statements and symbols when their positions in a text are
taken away.  A position serves to report what is wrong, and for nothing else.
-/

namespace AnnotatedShader

/-- A property without its position. -/
def Property.unsited (p : Property) : Property := { p with position := .nowhere }

namespace Declaration

/-- A declaration without the positions of its properties. -/
def unsited : Declaration → Declaration
  | .buffer name attr fields => .buffer name attr (fields.map Property.unsited)
  | .constant p => .constant p.unsited
  | .output p => .output p.unsited
  | .vertexFormat name attr fields => .vertexFormat name attr (fields.map Property.unsited)
  | .pipeline name entries => .pipeline name entries
  | .blendFunc name entries => .blendFunc name entries

@[simp] theorem name_unsited (d : Declaration) : d.unsited.name = d.name := by
  cases d <;> rfl

end Declaration

/-- What a statement is, without positions. -/
def StatementBody.unsited : StatementBody → StatementBody
  | .use u => .use u
  | .declare d => .declare d.unsited
  | .comment text => .comment text

/-- A symbol without positions. -/
def Symbol.unsited (s : Symbol) : Symbol := ⟨s.file, .nowhere, s.declaration.unsited⟩

@[simp] theorem Symbol.name_unsited (s : Symbol) : s.unsited.name = s.name :=
  s.declaration.name_unsited

/-! ## Properties at other positions -/

/-- A property at another position. -/
def Property.Moved (p p' : Property) : Prop := ∃ position, p' = { p with position }

theorem Property.moved_of_unsited {p p' : Property} (h : p'.unsited = p.unsited) : p.Moved p' := by
  obtain ⟨type, name, attr, index, position⟩ := p
  obtain ⟨type', name', attr', index', position'⟩ := p'
  obtain ⟨rfl, rfl, rfl, rfl, _⟩ := Property.mk.inj h
  exact ⟨position', rfl⟩

theorem Property.moved_of_map_unsited {fields fields' : List Property}
    (h : fields'.map Property.unsited = fields.map Property.unsited) :
    List.Forall₂ Property.Moved fields fields' := by
  rw [← List.forall₂_eq_eq_eq, List.forall₂_map_left_iff, List.forall₂_map_right_iff] at h
  exact h.flip.imp fun _ _ => Property.moved_of_unsited

/-- A declaration whose properties stand at other positions. -/
inductive Declaration.Moved : Declaration → Declaration → Prop
  | buffer (name : String) (attr : Option Attribute) (fields fields' : List Property)
    (h : List.Forall₂ Property.Moved fields fields') :
    Moved (.buffer name attr fields) (.buffer name attr fields')
  | constant (p p' : Property) (h : p.Moved p') : Moved (.constant p) (.constant p')
  | output (p p' : Property) (h : p.Moved p') : Moved (.output p) (.output p')
  | vertexFormat (name : String) (attr : Option Attribute) (fields fields' : List Property)
    (h : List.Forall₂ Property.Moved fields fields') :
    Moved (.vertexFormat name attr fields) (.vertexFormat name attr fields')
  | pipeline (name : String) (entries : List StateEntry) :
    Moved (.pipeline name entries) (.pipeline name entries)
  | blendFunc (name : String) (entries : List StateEntry) :
    Moved (.blendFunc name entries) (.blendFunc name entries)

/-- Declarations that are the same without positions differ in these alone. -/
theorem Declaration.moved_of_unsited {d d' : Declaration} (h : d'.unsited = d.unsited) :
    d.Moved d' := by
  cases d <;> cases d' <;> simp only [unsited, reduceCtorEq] at h
  · obtain ⟨rfl, rfl, hfields⟩ := Declaration.buffer.inj h
    exact .buffer _ _ _ _ (Property.moved_of_map_unsited hfields)
  · exact .constant _ _ (Property.moved_of_unsited (Declaration.constant.inj h))
  · exact .output _ _ (Property.moved_of_unsited (Declaration.output.inj h))
  · obtain ⟨rfl, rfl, hfields⟩ := Declaration.vertexFormat.inj h
    exact .vertexFormat _ _ _ _ (Property.moved_of_map_unsited hfields)
  · obtain ⟨rfl, rfl⟩ := Declaration.pipeline.inj h
    exact .pipeline _ _
  · obtain ⟨rfl, rfl⟩ := Declaration.blendFunc.inj h
    exact .blendFunc _ _

/-- A symbol at another position. -/
structure Symbol.Moved (s s' : Symbol) : Prop where
  file : s'.file = s.file
  declaration : s.declaration.Moved s'.declaration

theorem Symbol.moved_of_unsited {s s' : Symbol} (h : s'.unsited = s.unsited) : s.Moved s' := by
  obtain ⟨hfile, _, hdeclaration⟩ := Symbol.mk.inj h
  exact ⟨hfile, Declaration.moved_of_unsited hdeclaration⟩

/-- Symbols that may be missing and are the same without positions. -/
theorem Symbol.rel_moved_of_unsited {s s' : Option Symbol}
    (h : s'.map Symbol.unsited = s.map Symbol.unsited) : Option.Rel Symbol.Moved s s' := by
  cases s <;> cases s' <;> simp only [Option.map_none, Option.map_some, reduceCtorEq] at h
  · exact .none
  · exact .some (Symbol.moved_of_unsited (Option.some.inj h))

end AnnotatedShader

/-!
## Models without the sites of their entities

What is left of a model when it is forgotten which statements its entities belong to.  The lists of
structs and samplers are forgotten too: no order of statements is kept in them.
-/

namespace AnnotatedShader

def Buffer.unsited (b : Buffer) : Buffer := { b with index := 0, position := .nowhere }

def VertexFormat.unsited (vf : VertexFormat) : VertexFormat :=
  { vf with index := 0, position := .nowhere }

def Texture.unsited (t : Texture) : Texture := { t with index := 0, position := .nowhere }

def Output.unsited (out : Output) : Output := { out with index := 0, position := .nowhere }

def StateBlock.unsited (b : StateBlock) : StateBlock := { b with index := 0, position := .nowhere }

namespace Model

/-- A model without the sites of its entities, and without structs and samplers. -/
def unsited (m : Model) : Model where
  file := m.file
  stage := m.stage
  buffers := m.buffers.map Buffer.unsited
  structs := []
  vertexFormat := m.vertexFormat.map VertexFormat.unsited
  samplers := []
  textures := m.textures.map Texture.unsited
  outputs := m.outputs.map Output.unsited
  pipelines := m.pipelines.map StateBlock.unsited
  blendFuncs := m.blendFuncs.map StateBlock.unsited

def RootConstant.unsited (r : RootConstant) : RootConstant :=
  { r with index := 0, position := .nowhere }

def SamplerRef.unsited (r : SamplerRef) : SamplerRef := { r with position := .nowhere }

/-- A draft without the sites of its entities, and without structs and samplers. -/
def Draft.unsited (d : Draft) : Draft :=
  ⟨d.model.unsited, d.roots.map RootConstant.unsited, d.samplerRefs.map SamplerRef.unsited⟩

/-- The same model up to the sites of its entities, the order of its structs and its samplers. -/
structure Rearranged (m m' : Model) : Prop where
  unsited : m'.unsited = m.unsited
  structs : m'.structs.Perm m.structs

variable {m m' : Model}

theorem Rearranged.file (h : m.Rearranged m') : m'.file = m.file := by
  have hfile : m'.unsited.file = m.unsited.file := by rw [h.unsited]
  exact hfile

theorem Rearranged.stage (h : m.Rearranged m') : m'.stage = m.stage := by
  have hstage : m'.unsited.stage = m.unsited.stage := by rw [h.unsited]
  exact hstage

end Model

end AnnotatedShader
