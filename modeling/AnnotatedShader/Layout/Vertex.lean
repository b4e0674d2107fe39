import AnnotatedShader.Layout.Basic

set_option autoImplicit false

/-!
# The layout of vertex formats

The attributes of a vertex lie one behind the other without gaps.  The size of an attribute is that
of its components, whatever std140 would make of it.
-/

namespace AnnotatedShader.Layout.Vertex

/-- The size in bytes of an attribute. -/
def attributeSize : ShaderType → Except Misfit Int
  | .scalar c => .ok c.size
  | .vector _ c size => .ok (c.size * size)
  | .matrix _ c size => .ok (c.size * size * size)
  | t => .error (.notAnAttribute t.name)

/-- Places fields from an offset on, and gives the end of the last one. -/
def placeFrom : Int → List Field → Except Misfit (List Place × Int)
  | offset, [] => .ok ([], offset)
  | offset, f :: rest => do
    let size ← attributeSize f.type
    let (places, ending) ← placeFrom (offset + size) rest
    .ok (⟨f.name, offset, size⟩ :: places, ending)

/-- The layout of the fields of a vertex. -/
def ofFields (fields : List Field) : Except Misfit Layout := do
  let (places, ending) ← placeFrom 0 fields
  .ok ⟨places, ending, 1⟩

end AnnotatedShader.Layout.Vertex
