import AnnotatedShader.ShaderType

set_option autoImplicit false

/-!
# Byte layouts

A layout gives every field of a struct an offset and a size, and the struct a size and an alignment.
Sizes are integers, as an array may be asked for with any number of elements.

`alignUp` is the next multiple of an alignment, with the three facts that describe it.  What the
fields of buffers and the attributes of vertices get differs, but both are placed one behind the
other, and their layouts are of this one kind.
-/

namespace AnnotatedShader

/-- A field to be placed.  A packed field right behind another packed one keeps no alignment. -/
structure Field where
  name : String
  type : ShaderType
  packed : Bool
  deriving DecidableEq, Repr, Inhabited

/-- Where a field lies. -/
structure Place where
  name : String
  offset : Int
  size : Int
  deriving DecidableEq, Repr, Inhabited

/-- Where the fields of a struct lie, and its own size and alignment. -/
structure Layout where
  places : List Place
  size : Int
  alignment : Int
  deriving DecidableEq, Repr, Inhabited

namespace Layout

/-- The offset of the first field of a name. -/
def offsetOf? (l : Layout) (name : String) : Option Int :=
  (l.places.find? (·.name == name)).map Place.offset

/-- The least multiple of an alignment that is not below an offset. -/
def alignUp (offset alignment : Int) : Int :=
  (offset + alignment - 1).fdiv alignment * alignment

/-- As `alignUp`, for an alignment that may be 0, to which nothing can be aligned. -/
def alignUp? (offset alignment : Int) : Option Int :=
  if alignment = 0 then none else some (alignUp offset alignment)

theorem alignUp_dvd (offset alignment : Int) : alignment ∣ alignUp offset alignment :=
  Int.dvd_mul_left ..

theorem le_alignUp {offset alignment : Int} (h : 0 < alignment) :
    offset ≤ alignUp offset alignment := by
  unfold alignUp
  have h1 := Int.mul_fdiv_add_fmod (offset + alignment - 1) alignment
  have h2 := Int.fmod_lt_of_pos (offset + alignment - 1) h
  rw [Int.mul_comm] at h1
  omega

theorem alignUp_lt {offset alignment : Int} (h : 0 < alignment) :
    alignUp offset alignment < offset + alignment := by
  unfold alignUp
  have h1 := Int.mul_fdiv_add_fmod (offset + alignment - 1) alignment
  have h2 := Int.fmod_nonneg_of_pos (offset + alignment - 1) h
  rw [Int.mul_comm] at h1
  omega

end Layout

end AnnotatedShader
