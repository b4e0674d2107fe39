import AnnotatedShader.Layout.Basic
import AnnotatedShader.Source.Stage
import AnnotatedShader.Statement.Basic

set_option autoImplicit false

/-!
# Models of files

What the annotations of a file declare, with types, offsets and slots: constant buffers, the structs
inside them, a vertex format, samplers, textures, outputs and state blocks.  Every entity knows the
index of the statement that declares or imports it, and the position of that statement.

A struct is a definition of its own, identified by its file and name, and members refer to it; the
definitions of a model stand in the order in which they need each other.  A slot is `unassigned`
until it has been given.
-/

namespace AnnotatedShader

/-- The slot of a resource that has none yet. -/
def unassigned : Int := -1

/-- A member of a buffer or struct. -/
structure Member where
  name : String
  type : ShaderType
  typeText : String
  attr : Option Attribute
  index : Nat
  offset : Int
  size : Int
  deriving DecidableEq, Repr, Inhabited

/-- A constant buffer.  The root buffer collects the constants that stand outside all structs. -/
structure Buffer where
  name : String
  members : List Member
  order : Option Int
  index : Nat
  origin : String
  position : Position
  layout : Layout
  binding : Int
  isRoot : Bool
  deriving DecidableEq, Repr, Inhabited

/-- A struct that occurs as the type of members. -/
structure StructDef where
  id : StructId
  members : List Member
  layout : Layout
  dependencies : List StructId
  deriving DecidableEq, Repr, Inhabited

/-- An attribute of a vertex. -/
structure VertexInput where
  name : String
  type : ShaderType
  typeText : String
  order : Option Int
  index : Nat
  offset : Int
  location : Int
  deriving DecidableEq, Repr, Inhabited

/-- The attributes of a vertex. -/
structure VertexFormat where
  name : String
  inputs : List VertexInput
  stride : Int
  index : Nat
  origin : String
  position : Position
  deriving DecidableEq, Repr, Inhabited

/-- A sampler. -/
structure Sampler where
  name : String
  index : Nat
  position : Position
  deriving DecidableEq, Repr, Inhabited

/-- A texture with the name of its sampler. -/
structure Texture where
  name : String
  type : ShaderType
  typeText : String
  sampler : String
  index : Nat
  position : Position
  binding : Int
  deriving DecidableEq, Repr, Inhabited

/-- An output of a stage. -/
structure Output where
  name : String
  type : ShaderType
  typeText : String
  order : Option Int
  index : Nat
  position : Position
  location : Int
  deriving DecidableEq, Repr, Inhabited

/-- A pipeline or blend function. -/
structure StateBlock where
  name : String
  entries : List StateEntry
  index : Nat
  position : Position
  deriving DecidableEq, Repr, Inhabited

/-- The model of a file.  Structs stand behind those they depend on. -/
structure Model where
  file : String
  stage : Stage
  buffers : List Buffer
  structs : List StructDef
  vertexFormat : Option VertexFormat
  samplers : List Sampler
  textures : List Texture
  outputs : List Output
  pipelines : List StateBlock
  blendFuncs : List StateBlock
  deriving DecidableEq, Repr, Inhabited

namespace Model

/-- The model of a file that declares nothing. -/
def empty (file : String) (stage : Stage) : Model :=
  ⟨file, stage, [], [], none, [], [], [], [], []⟩

/-- The first buffer of a name. -/
def buffer? (m : Model) (name : String) : Option Buffer := m.buffers.find? (·.name == name)

/-- The first texture of a name. -/
def texture? (m : Model) (name : String) : Option Texture := m.textures.find? (·.name == name)

/-- The definition of a struct. -/
def struct? (m : Model) (id : StructId) : Option StructDef := m.structs.find? (·.id == id)

end Model

/-- The layouts that struct definitions give. -/
def layoutsOf (defs : List StructDef) (id : StructId) : Option Layout :=
  (defs.find? (·.id == id)).map StructDef.layout

end AnnotatedShader
