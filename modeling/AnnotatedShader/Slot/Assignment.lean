import AnnotatedShader.Failure
import AnnotatedShader.Model.Basic
import AnnotatedShader.Slot.Allocation

set_option autoImplicit false

/-!
# Slots of one file

The vertex attributes, constant buffers, textures and outputs of a model are numbered each on their
own.  Textures cannot be pinned.

Each class makes its requests in the order of its entities, an input of a matrix for as many slots
as it has columns.  A conflict is reported where its second claim was made; for vertex inputs this
is the place of the format.
-/

namespace AnnotatedShader

/-- The classes of resources that are numbered apart. -/
inductive ResourceClass where
  | vertexAttribute | constantBuffer | texture | output
  deriving DecidableEq, Repr, Inhabited

/-- How messages name a class. -/
def ResourceClass.text : ResourceClass → String
  | .vertexAttribute => "vertex attribute"
  | .constantBuffer => "constant buffer"
  | .texture => "texture"
  | .output => "output"

namespace Model

/-- The slot of a name, which must have got one. -/
def needSlot (slots : Slots) (name : String) : Except Failure Int :=
  match slots.slot? name with
  | some slot => .ok slot
  | none => .error (.slotMissing name)

/-- Slots for requests, as a step that may fail. -/
def slotsFor (file : String) (cls : ResourceClass) (rs : List (SlotRequest Position)) :
    Except Failure Slots :=
  match SlotRequest.allocate rs with
  | .ok slots => .ok slots
  | .error c => .error (.at_ file (c.place?.getD .nowhere) (.slotClash (c.clash cls.text)))

/-- The requests of the inputs of a vertex format.  A wide type takes several locations. -/
def inputRequests (vf : VertexFormat) : List (SlotRequest Position) :=
  vf.inputs.map fun i => ⟨i.name, i.order, i.index, vf.position, i.type.locations⟩

/-- The requests of the buffers. -/
def bufferRequests (m : Model) : List (SlotRequest Position) :=
  m.buffers.map fun b => ⟨b.name, b.order, b.index, b.position, 1⟩

/-- The requests of the textures. -/
def textureRequests (m : Model) : List (SlotRequest Position) :=
  m.textures.map fun t => ⟨t.name, none, t.index, t.position, 1⟩

/-- The requests of the outputs. -/
def outputRequests (m : Model) : List (SlotRequest Position) :=
  m.outputs.map fun o => ⟨o.name, o.order, o.index, o.position, 1⟩

/-- A vertex format with the locations of its inputs. -/
def locateFormat (file : String) (vf : VertexFormat) : Except Failure VertexFormat := do
  let slots ← slotsFor file .vertexAttribute (inputRequests vf)
  let inputs ← vf.inputs.mapM fun i => do
    let slot ← needSlot slots i.name
    .ok { i with location := slot }
  .ok { vf with inputs }

/-- A vertex format that may be missing, with the locations of its inputs. -/
def locateFormat? (file : String) : Option VertexFormat → Except Failure (Option VertexFormat)
  | none => .ok none
  | some vf => (locateFormat file vf).map some

/-- A model with the slots of all its resources. -/
def assignSlots (m : Model) : Except Failure Model := do
  let vertexFormat ← locateFormat? m.file m.vertexFormat
  let slots ← slotsFor m.file .constantBuffer m.bufferRequests
  let buffers ← m.buffers.mapM fun b => do
    let slot ← needSlot slots b.name
    .ok { b with binding := slot }
  let slots ← slotsFor m.file .texture m.textureRequests
  let textures ← m.textures.mapM fun t => do
    let slot ← needSlot slots t.name
    .ok { t with binding := slot }
  let slots ← slotsFor m.file .output m.outputRequests
  let outputs ← m.outputs.mapM fun o => do
    let slot ← needSlot slots o.name
    .ok { o with location := slot }
  .ok { m with vertexFormat, buffers, textures, outputs }

end Model

end AnnotatedShader
