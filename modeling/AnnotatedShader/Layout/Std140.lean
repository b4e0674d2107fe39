import AnnotatedShader.Layout.Basic

set_option autoImplicit false

/-!
# The std140 layout of constant buffers

Scalars are aligned to their size, vectors of two to twice and vectors of three or four to four
times the size of a component.  The elements of an array, and the columns of a matrix, are rounded
up to a multiple of sixteen bytes, and so is the alignment of a struct.

`extent` is the size and the alignment of a type, by recursion on the type; a struct is looked up
among the layouts of the structs that are defined before it.  `ofFields` places fields one behind
the other, each at the next multiple of its alignment.
-/

namespace AnnotatedShader.Layout.Std140

open AnnotatedShader.Layout

/-- The alignment that arrays and structs are rounded up to. -/
def vec4Alignment : Int := 16

/-- The size and the alignment of a type. -/
structure Extent where
  size : Int
  alignment : Int
  deriving DecidableEq, Repr, Inhabited

/-- The extent of a vector. -/
def vectorExtent (c : Component) (size : Nat) : Extent :=
  if size = 2 then ⟨2 * c.size, 2 * c.size⟩ else ⟨size * c.size, 4 * c.size⟩

/-- The extent of an array. -/
def arrayExtent (element : Extent) (count : Int) : Extent :=
  let alignment := alignUp element.alignment vec4Alignment
  ⟨alignUp element.size alignment * count, alignment⟩

/-- The extent of a type, given the layouts of structs. -/
def extent (structs : StructId → Option Layout) : ShaderType → Except Misfit Extent
  | .scalar c => .ok ⟨c.size, c.size⟩
  | .vector _ c size => .ok (vectorExtent c size)
  | .matrix _ c size => .ok (arrayExtent (vectorExtent c size) size)
  | .array _ element count => (extent structs element).map (arrayExtent · count)
  | .struct id =>
    match structs id with
    | some l => .ok ⟨l.size, l.alignment⟩
    | none => .error (.unknownStruct id)
  | .sampler => .error (.notInBuffer ShaderType.sampler.name)
  | .texture kind element => .error (.notInBuffer (ShaderType.texture kind element).name)

/-- Fields placed one behind the other: their places, the end of the last one and their greatest
alignment. -/
structure Run where
  places : List Place
  ending : Int
  alignment : Int
  deriving DecidableEq, Repr, Inhabited

/-- Places fields from an offset on; `afterPacked` tells whether a packed field is in front. -/
def placeFrom (structs : StructId → Option Layout) :
    (offset alignment : Int) → (afterPacked : Bool) → List Field → Except Misfit Run
  | offset, alignment, _, [] => .ok ⟨[], offset, alignment⟩
  | offset, alignment, afterPacked, f :: rest => do
    let e ← extent structs f.type
    let start := if f.packed && afterPacked then offset else alignUp offset e.alignment
    let run ← placeFrom structs (start + e.size) (max alignment e.alignment) f.packed rest
    .ok { run with places := ⟨f.name, start, e.size⟩ :: run.places }

/-- The layout of fields in their order.  A struct without fields takes no room. -/
def ofFields (structs : StructId → Option Layout) (fields : List Field) :
    Except Misfit Layout := do
  let run ← placeFrom structs 0 0 false fields
  if fields.isEmpty then .ok ⟨[], 0, vec4Alignment⟩
  else
    let alignment := alignUp run.alignment vec4Alignment
    .ok ⟨run.places, alignUp run.ending alignment, alignment⟩

end AnnotatedShader.Layout.Std140
