import AnnotatedShader.Batch.Options
import AnnotatedShader.Failure
import AnnotatedShader.Model.Basic
import AnnotatedShader.Number.Numeral
import AnnotatedShader.Source.Annotated

set_option autoImplicit false

/-!
# GLSL declarations

A model turns into GLSL declarations: vertex inputs, structs, uniform blocks, samplers and outputs.
Each stands in the block of annotations that introduces it, in the order of the statements, and a
struct stands in front of its first use.  `Declaration.lines` writes a declaration down.

The structs that a declaration needs are emitted before it, those that they need themselves before
them, and none twice: `Emission` carries the structs that have been emitted from one entity to the
next.  Writing can fail where a number has too many digits, so it gives lines or a failure.
-/

namespace AnnotatedShader.Glsl

/-- A member of a struct or uniform block, with an offset if it states one. -/
structure MemberDeclaration where
  offset : Option Int
  type : ShaderType
  name : String
  deriving DecidableEq, Repr, Inhabited

/-- A declaration. -/
inductive Declaration where
  | input (location : Int) (type : ShaderType) (name : String)
  | struct (id : StructId) (members : List MemberDeclaration)
  | block (binding : Option Int) (name : String) (members : List MemberDeclaration)
      (instanceName : Option String)
  | texture (binding : Option Int) (type : ShaderType) (name : String)
  | output (location : Int) (type : ShaderType) (name : String)
  /-- a struct that the model uses but does not define -/
  | undefined (id : StructId)
  deriving DecidableEq, Repr, Inhabited

/-! ## Writing -/

/-- Writes an integer, if it has not too many digits. -/
def writeInt (n : Int) : Except Failure String :=
  if Number.isWritable n then .ok (toString n) else .error .numeralUnwritten

/-- The name of a type. -/
def typeName (t : ShaderType) : Except Failure String :=
  match t.glslName with
  | .ok name => .ok name
  | .error m => .error (.misfit m)

/-- A member without its offset. -/
def plainMember (m : MemberDeclaration) : Except Failure String := do
  let type ← typeName m.type
  match m.type with
  | .array _ _ size => do
    let size ← writeInt size
    .ok (type ++ " " ++ m.name ++ "[" ++ size ++ "];")
  | _ => .ok (type ++ " " ++ m.name ++ ";")

/-- The line of a member. -/
def memberLine (m : MemberDeclaration) : Except Failure String := do
  match m.offset with
  | none => do
    let plain ← plainMember m
    .ok ("    " ++ plain)
  | some offset => do
    let offset ← writeInt offset
    let plain ← plainMember m
    .ok ("    layout(offset = " ++ offset ++ ") " ++ plain)

/-- The lines of a declaration. -/
def Declaration.lines : Declaration → Except Failure (List String)
  | .input location type name => do
    let location ← writeInt location
    let type ← typeName type
    .ok ["layout(location = " ++ location ++ ") in " ++ type ++ " " ++ name ++ ";"]
  | .struct id members => do
    let type ← typeName (.struct id)
    let members ← members.mapM memberLine
    .ok (("struct " ++ type ++ " \x7b") :: members ++ ["\x7d;"])
  | .block binding name members instanceName => do
    let qualifiers ←
      match binding with
      | none => .ok "std140"
      | some slot => do
        let slot ← writeInt slot
        .ok ("binding = " ++ slot ++ ", std140")
    let members ← members.mapM memberLine
    let closing :=
      match instanceName with
      | none => "\x7d;"
      | some instanceName => "\x7d " ++ instanceName ++ ";"
    .ok (("layout(" ++ qualifiers ++ ") uniform " ++ name ++ "Block \x7b") :: members ++ [closing])
  | .texture none type name => do
    let type ← typeName type
    .ok ["uniform " ++ type ++ " " ++ name ++ ";"]
  | .texture (some slot) type name => do
    let slot ← writeInt slot
    let type ← typeName type
    .ok ["layout(binding = " ++ slot ++ ") uniform " ++ type ++ " " ++ name ++ ";"]
  | .output location type name => do
    let location ← writeInt location
    let type ← typeName type
    .ok ["layout(location = " ++ location ++ ") out " ++ type ++ " " ++ name ++ ";"]
  | .undefined id => .error (.misfit (.unknownStruct id))

/-! ## Structs in front of their use -/

/-- Declarations so far, and the structs among them. -/
structure Emission where
  declarations : List Declaration
  emitted : List StructId
  deriving DecidableEq, Repr, Inhabited

/-- The members of a struct as its declaration has them: without offsets. -/
def structMembers (ms : List Member) : List MemberDeclaration :=
  ms.map fun m => ⟨none, m.type, m.name⟩

/-- Declares a struct behind those it depends on, unless it is declared already; `fuel` bounds the
depth of dependencies. -/
def emitStruct (m : Model) : Nat → Emission → StructId → Emission
  | 0, e, _ => e
  | fuel + 1, e, id =>
    if e.emitted.contains id then e
    else
      match m.struct? id with
      | none => ⟨e.declarations ++ [.undefined id], id :: e.emitted⟩
      | some d =>
        let e := d.dependencies.foldl (emitStruct m fuel) ⟨e.declarations, id :: e.emitted⟩
        ⟨e.declarations ++ [.struct id (structMembers d.members)], e.emitted⟩

/-- Declares the structs that members refer to.  No chain of structs is longer than their number. -/
def emitStructs (m : Model) (emitted : List StructId) (ms : List Member) : Emission :=
  (ms.filterMap fun member => member.type.structId?).foldl (emitStruct m (m.structs.length + 1))
    ⟨[], emitted⟩

/-! ## Declarations of a model -/

/-- Declarations with the index of the statement and the block that they belong to. -/
structure Item where
  index : Nat
  block : Nat
  declarations : List Declaration
  deriving DecidableEq, Repr, Inhabited

/-- The block of annotations that a position lies in; a position outside all blocks counts for the
first. -/
def blockOf (a : Source.Annotated) (position : Position) : Nat :=
  (a.blockOf? position.line).getD 0

/-- A slot, where declarations state their bindings. -/
def bindingFor (o : Options) (slot : Int) : Option Int :=
  if o.explicitBindings then some slot else none

/-- A member of a buffer as its uniform block has it. -/
def blockMember (o : Options) (m : Member) : Except Failure MemberDeclaration :=
  match o.memberOffsets? with
  | some stated => .ok ⟨if stated then some m.offset else none, m.type, m.name⟩
  | none => .error .versionMissing

/-- The instance of the uniform block of a buffer; the root buffer has none. -/
def instanceName? (b : Buffer) : Option String := if b.isRoot then none else some b.name

/-- The uniform block of a buffer. -/
def blockDeclaration (o : Options) (b : Buffer) : Except Failure Declaration := do
  let members ← b.members.mapM (blockMember o)
  .ok (.block (bindingFor o b.binding) b.name members (instanceName? b))

/-- The item of a vertex format. -/
def formatItem (a : Source.Annotated) (vf : VertexFormat) : Item :=
  ⟨vf.index, blockOf a vf.position, vf.inputs.map fun i =>
    .input i.location i.type (vf.name ++ "_" ++ i.name)⟩

/-- The items of buffers, each with the structs that no earlier one has declared. -/
def bufferItems (a : Source.Annotated) (m : Model) (o : Options) :
    (emitted : List StructId) → List Buffer → Except Failure (List Item)
  | _, [] => .ok []
  | emitted, b :: rest => do
    let e := emitStructs m emitted b.members
    let block ← blockDeclaration o b
    let others ← bufferItems a m o e.emitted rest
    .ok (⟨b.index, blockOf a b.position, e.declarations ++ [block]⟩ :: others)

/-- The item of a texture. -/
def textureItem (a : Source.Annotated) (o : Options) (t : Texture) : Item :=
  ⟨t.index, blockOf a t.position, [.texture (bindingFor o t.binding) t.type t.name]⟩

/-- The item of an output. -/
def outputItem (a : Source.Annotated) (out : Output) : Item :=
  ⟨out.index, blockOf a out.position, [.output out.location out.type out.name]⟩

/-- The items of a model, in the order of its statements. -/
def items (a : Source.Annotated) (m : Model) (o : Options) : Except Failure (List Item) := do
  let buffers ← bufferItems a m o [] m.buffers
  .ok ((m.vertexFormat.toList.map (formatItem a) ++ buffers ++ m.textures.map (textureItem a o) ++
    m.outputs.map (outputItem a)).mergeSort fun x y => decide (x.index ≤ y.index))

/-- The declarations that stand for a block of annotations. -/
def declarationsOf (is : List Item) (block : Nat) : List Declaration :=
  (is.filter (·.block == block)).flatMap Item.declarations

end AnnotatedShader.Glsl
