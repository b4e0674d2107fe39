set_option autoImplicit false

/-!
# Shader types

The types that annotations name: scalars, vectors, square matrices, samplers, textures with an
element type, structs by the file that declares them, and arrays.  A vector or matrix keeps the
spelling of its name, an array the text it was written as.

Types are written in three ways: as the annotations have them, as GLSL has them, and as the format
of a vertex attribute.  In GLSL the component of a vector or matrix is told by a letter in front, in
annotations by one behind.  A `Misfit` is what a type is refused for in a certain place.
-/

namespace AnnotatedShader

/-- The component of a numeric type. -/
inductive Component where
  | float | double | int | uint | bool
  deriving DecidableEq, Repr, Inhabited

namespace Component

/-- Every component. -/
def all : List Component := [.float, .double, .int, .uint, .bool]

/-- The scalar type of a component. -/
def scalarName : Component → String
  | .float => "float"
  | .double => "double"
  | .int => "int"
  | .uint => "uint"
  | .bool => "bool"

/-- The letter at the end of the names of vectors and matrices. -/
def letter : Component → Char
  | .float => 'f'
  | .double => 'd'
  | .int => 'i'
  | .uint => 'u'
  | .bool => 'b'

/-- The component of a letter. -/
def ofLetter? (c : Char) : Option Component := all.find? (·.letter == c)

/-- The size in bytes. -/
def size : Component → Int
  | .double => 8
  | _ => 4

/-- The letters in front of a GLSL vector or matrix type. -/
def glslStart : Component → String
  | .float => ""
  | .double => "d"
  | .int => "i"
  | .uint => "u"
  | .bool => "b"

/-- The width in bits of one channel of a vertex input. -/
def formatBits : Component → String
  | .double => "64"
  | _ => "32"

/-- The numeric class of a vertex input. -/
def formatClass : Component → String
  | .float | .double => "SFLOAT"
  | .int => "SINT"
  | .uint | .bool => "UINT"

theorem size_pos (c : Component) : 0 < c.size := by cases c <;> decide

end Component

/-- The shapes of textures. -/
inductive TextureKind where
  | flat | volume | layered | cube
  deriving DecidableEq, Repr, Inhabited

namespace TextureKind

/-- Every shape. -/
def all : List TextureKind := [.flat, .volume, .layered, .cube]

/-- How annotations name a shape. -/
def name : TextureKind → String
  | .flat => "Texture2D"
  | .volume => "Texture3D"
  | .layered => "Texture2DArray"
  | .cube => "TextureCube"

/-- How GLSL names the sampler of a shape. -/
def glslSampler : TextureKind → String
  | .flat => "sampler2D"
  | .volume => "sampler3D"
  | .layered => "sampler2DArray"
  | .cube => "samplerCube"

/-- The shape of a name. -/
def ofName? (text : String) : Option TextureKind := all.find? (·.name == text)

end TextureKind

/-- A struct is known by the name and the file of its declaration. -/
structure StructId where
  name : String
  origin : String
  deriving DecidableEq, Repr, Inhabited

/-- A type. -/
inductive ShaderType where
  | scalar (c : Component)
  | vector (spelling : String) (c : Component) (size : Nat)
  | matrix (spelling : String) (c : Component) (size : Nat)
  | sampler
  | texture (kind : TextureKind) (element : ShaderType)
  | struct (id : StructId)
  | array (text : String) (element : ShaderType) (size : Int)
  deriving DecidableEq, Repr, Inhabited

/-- A type where it has no meaning. -/
inductive Misfit where
  /-- GLSL has no such type -/
  | withoutGlsl (type : String)
  /-- the type has no place in a constant buffer -/
  | notInBuffer (type : String)
  /-- the type is no vertex attribute -/
  | notAnAttribute (type : String)
  /-- no layout of the struct is known -/
  | unknownStruct (id : StructId)
  deriving DecidableEq, Repr, Inhabited

namespace ShaderType

/-! ## Names -/

/-- The name of the sampler type. -/
def samplerName : String := "Sampler"

/-- How a type is shown. -/
def name : ShaderType → String
  | .scalar c => c.scalarName
  | .vector spelling _ _ | .matrix spelling _ _ => spelling
  | .sampler => samplerName
  | .texture kind element => kind.name ++ ":" ++ element.name
  | .struct id => id.name
  | .array text _ _ => text

/-- The rows or columns that a digit between 2 and 4 stands for. -/
def sizeOfDigit? (c : Char) : Option Nat :=
  if c = '2' then some 2 else if c = '3' then some 3 else if c = '4' then some 4 else none

/-- The vector or matrix type of a name: `vec` or `mat`, a size and the letter of a component.  One
line feed may follow.  There are no boolean matrices. -/
def ofShapedName? (spelling : String) : Option ShaderType :=
  let parts (digit letter : Char) : Option (Nat × Component) := do
    let size ← sizeOfDigit? digit
    let c ← Component.ofLetter? letter
    some (size, c)
  let ends (tail : List Char) : Bool := tail == [] || tail == ['\n']
  match spelling.toList with
  | 'v' :: 'e' :: 'c' :: digit :: letter :: tail =>
    if ends tail then (parts digit letter).map fun (size, c) => .vector spelling c size else none
  | 'm' :: 'a' :: 't' :: digit :: letter :: tail =>
    if ends tail then
      match parts digit letter with
      | some (_, .bool) => none
      | some (size, c) => some (.matrix spelling c size)
      | none => none
    else none
  | _ => none

/-- The scalar, vector, matrix or sampler type of a name. -/
def ofName? (text : String) : Option ShaderType :=
  match Component.all.find? (·.scalarName == text) with
  | some c => some (.scalar c)
  | none => if text = samplerName then some .sampler else ofShapedName? text

/-! ## Classes of types -/

/-- Scalars and vectors can be packed, and are the elements of textures. -/
def isPackable : ShaderType → Bool
  | .scalar _ | .vector _ _ _ => true
  | _ => false

/-- Scalars, vectors and matrices are vertex inputs. -/
def isNumeric : ShaderType → Bool
  | .scalar _ | .vector _ _ _ | .matrix _ _ _ => true
  | _ => false

/-- Samplers and textures live outside buffers. -/
def isObject : ShaderType → Bool
  | .sampler | .texture _ _ => true
  | _ => false

/-- The texture type of the names of a shape and an element. -/
def ofTextureName? (kind element : String) : Option ShaderType := do
  let kind ← TextureKind.ofName? kind
  let element ← ofName? element
  if element.isPackable then some (.texture kind element) else none

/-- The struct that a type is, or is an array of. -/
def structId? : ShaderType → Option StructId
  | .struct id => some id
  | .array _ (.struct id) _ => some id
  | _ => none

/-- The number of elements of an array, and 0 for another type. -/
def arraySize : ShaderType → Int
  | .array _ _ size => size
  | _ => 0

/-! ## In GLSL -/

/-- The letters in front of a GLSL sampler type: only integers are told apart. -/
def samplerStart : ShaderType → String
  | .scalar .int | .vector _ .int _ => "i"
  | .scalar .uint | .vector _ .uint _ => "u"
  | _ => ""

/-- How GLSL names a type; an array has the name of its elements. -/
def glslName : ShaderType → Except Misfit String
  | .scalar c => .ok c.scalarName
  | .vector _ c size => .ok (c.glslStart ++ "vec" ++ toString size)
  | .matrix _ c size => .ok (c.glslStart ++ "mat" ++ toString size)
  | .texture kind element => .ok (samplerStart element ++ kind.glslSampler)
  | .struct id => .ok (id.name ++ "Type")
  | .array _ element _ => glslName element
  | .sampler => .error (.withoutGlsl samplerName)

/-- The number of consecutive locations of a vertex input.  A matrix takes one per column; a column
or vector of three or four doubles takes two. -/
def locations : ShaderType → Nat
  | .vector _ .double size => if 2 < size then 2 else 1
  | .matrix _ .double size => if 2 < size then size * 2 else size
  | .matrix _ _ size => size
  | _ => 1

/-- The channels of a vertex input with their bits. -/
def channels (bits : String) (count : Nat) : String :=
  String.join ((["R", "G", "B", "A"].take count).map (· ++ bits))

/-- The format of a vertex input; a matrix has the format of a column, other types have none. -/
def format : ShaderType → String
  | .scalar c => "R" ++ c.formatBits ++ "_" ++ c.formatClass
  | .vector _ c size | .matrix _ c size =>
    channels c.formatBits size ++ "_" ++ c.formatClass
  | _ => ""

theorem locations_pos {t : ShaderType} (h : ∀ s c, t ≠ .matrix s c 0) : 0 < t.locations := by
  cases t with
  | matrix s c size =>
    have hs : size ≠ 0 := fun e => h s c (e ▸ rfl)
    cases c <;> simp only [locations] <;> (try split) <;> omega
  | vector s c size => cases c <;> simp only [locations] <;> (try split) <;> omega
  | _ => simp [locations]

end ShaderType

/-- The message for a misplaced type. -/
def Misfit.message : Misfit → String
  | .withoutGlsl type => "type '" ++ type ++ "' has no GLSL equivalent"
  | .notInBuffer type => "type '" ++ type ++ "' cannot be placed in a constant buffer"
  | .notAnAttribute type => "type '" ++ type ++ "' cannot be a vertex attribute"
  | .unknownStruct id => "struct '" ++ id.name ++ "' has no layout"

end AnnotatedShader
