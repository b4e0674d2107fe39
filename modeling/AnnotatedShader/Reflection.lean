import AnnotatedShader.Failure
import AnnotatedShader.Json.Writer
import AnnotatedShader.Model.Basic

set_option autoImplicit false

/-!
# Reflection records

A reflection record tells a program that uses the generated shader where each resource is bound.
Its lists are sorted by slot.  The record is written as a JSON document.

The record is made of the model, entity by entity: members of buffers and formats are listed with
their offsets, types by their names.  `toJson` is the document as a value; it can be written unless
an integer in it has too many digits.
-/

namespace AnnotatedShader

/-- A vertex attribute. -/
structure AttributeRecord where
  name : String
  type : String
  location : Int
  offset : Int
  format : String
  deriving DecidableEq, Repr, Inhabited

/-- A member of a buffer. -/
structure MemberRecord where
  name : String
  type : String
  offset : Int
  size : Int
  arraySize : Int
  deriving DecidableEq, Repr, Inhabited

/-- A constant buffer. -/
structure BufferRecord where
  name : String
  binding : Int
  size : Int
  members : List MemberRecord
  deriving DecidableEq, Repr, Inhabited

/-- A texture. -/
structure TextureRecord where
  name : String
  binding : Int
  sampler : String
  type : String
  deriving DecidableEq, Repr, Inhabited

/-- An output. -/
structure OutputRecord where
  name : String
  type : String
  location : Int
  deriving DecidableEq, Repr, Inhabited

/-- A pipeline or blend function. -/
structure StateRecord where
  name : String
  entries : List StateEntry
  deriving DecidableEq, Repr, Inhabited

/-- The resources of a file. -/
structure Reflection where
  source : String
  stage : Stage
  attributes : List AttributeRecord
  stride : Int
  buffers : List BufferRecord
  textures : List TextureRecord
  outputs : List OutputRecord
  pipelines : List StateRecord
  blendFuncs : List StateRecord
  deriving DecidableEq, Repr, Inhabited

namespace Reflection

/-- The version of the format of reflection documents. -/
def version : Int := 1

/-! ## Records of a model -/

/-- The record of a vertex input. -/
def attributeRecord (format : String) (i : VertexInput) : AttributeRecord :=
  ⟨format ++ "_" ++ i.name, i.typeText, i.location, i.offset, i.type.format⟩

/-- The record of a member. -/
def memberRecord (m : Member) : MemberRecord :=
  ⟨m.name, m.typeText, m.offset, m.size, m.type.arraySize⟩

/-- The record of a buffer. -/
def bufferRecord (b : Buffer) : BufferRecord :=
  ⟨b.name, b.binding, b.layout.size, b.members.map memberRecord⟩

/-- The record of a texture. -/
def textureRecord (t : Texture) : TextureRecord := ⟨t.name, t.binding, t.sampler, t.typeText⟩

/-- The record of an output. -/
def outputRecord (o : Output) : OutputRecord := ⟨o.name, o.typeText, o.location⟩

/-- The record of a state block. -/
def stateRecord (b : StateBlock) : StateRecord := ⟨b.name, b.entries⟩

/-- Records in the order of their slots. -/
def sortBySlot {α : Type} (slot : α → Int) (records : List α) : List α :=
  records.mergeSort fun a b => decide (slot a ≤ slot b)

/-- The records of the attributes of a vertex format. -/
def attributeRecords (vf : VertexFormat) : List AttributeRecord :=
  sortBySlot AttributeRecord.location (vf.inputs.map (attributeRecord vf.name))

/-- The reflection record of a model. -/
def ofModel (m : Model) : Reflection where
  source := m.file
  stage := m.stage
  attributes := (m.vertexFormat.map attributeRecords).getD []
  stride := (m.vertexFormat.map VertexFormat.stride).getD 0
  buffers := sortBySlot BufferRecord.binding (m.buffers.map bufferRecord)
  textures := sortBySlot TextureRecord.binding (m.textures.map textureRecord)
  outputs := sortBySlot OutputRecord.location (m.outputs.map outputRecord)
  pipelines := m.pipelines.map stateRecord
  blendFuncs := m.blendFuncs.map stateRecord

/-! ## Documents -/

/-- An attribute in a document. -/
def attributeJson (a : AttributeRecord) : Json :=
  .object [("name", .str a.name), ("type", .str a.type), ("location", .int a.location),
    ("offset", .int a.offset), ("format", .str a.format)]

/-- A member in a document. -/
def memberJson (m : MemberRecord) : Json :=
  .object [("name", .str m.name), ("type", .str m.type), ("offset", .int m.offset),
    ("size", .int m.size), ("array_size", .int m.arraySize)]

/-- A buffer in a document. -/
def bufferJson (b : BufferRecord) : Json :=
  .object [("name", .str b.name), ("binding", .int b.binding), ("size", .int b.size),
    ("members", .array (b.members.map memberJson))]

/-- A texture in a document. -/
def textureJson (t : TextureRecord) : Json :=
  .object [("name", .str t.name), ("binding", .int t.binding), ("sampler", .str t.sampler),
    ("type", .str t.type)]

/-- An output in a document. -/
def outputJson (o : OutputRecord) : Json :=
  .object [("name", .str o.name), ("type", .str o.type), ("location", .int o.location)]

/-- A state value in a document; a name is a string there. -/
def valueJson : StateValue → Json
  | .bool b => .bool b
  | .int n => .int n
  | .float x => .float x
  | .name s => .str s

/-- A state block in a document. -/
def stateJson (s : StateRecord) : Json :=
  .object [("name", .str s.name),
    ("entries", .object (s.entries.map fun e => (e.key, valueJson e.value)))]

/-- A reflection record as a JSON value. -/
def toJson (r : Reflection) : Json :=
  .object [("version", .int version), ("source", .str r.source), ("stage", .str r.stage.name),
    ("vertex_attributes", .array (r.attributes.map attributeJson)),
    ("vertex_stride", .int r.stride),
    ("constant_buffers", .array (r.buffers.map bufferJson)),
    ("textures", .array (r.textures.map textureJson)),
    ("outputs", .array (r.outputs.map outputJson)),
    ("pipelines", .array (r.pipelines.map stateJson)),
    ("blendfuncs", .array (r.blendFuncs.map stateJson))]

/-- The document of a reflection record, unless an integer in it has too many digits. -/
def document (r : Reflection) : Except Failure String :=
  if r.toJson.integers.all Number.isWritable then .ok r.toJson.document
  else .error .numeralUnwritten

end Reflection

end AnnotatedShader
