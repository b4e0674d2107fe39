import AnnotatedShader.Slot.Assignment

set_option autoImplicit false

/-!
# Slots of a program

The files of a batch are the stages of one program, so a buffer or texture has the same slot in all
of them.  A name that some file pins keeps its pin everywhere.  The other names get, when they are
first met, the least slot that is neither pinned nor given away.  Attributes and outputs stay as
they are in each file.

Pins are gathered over all files before the first name is given a slot, and a pin that clashes with
one before it is reported in its own file.

`Program.relocate` gives the models with their common slots; `Program.relocateInPlace` writes the
slots into models that are there, in one pass for each class of resources, and tells what the models
are like when it ends, whether it succeeds or not.
-/

namespace AnnotatedShader

/-- A resource that the files of a program share by its name. -/
structure Shared where
  name : String
  order : Option Int
  index : Nat
  position : Position
  deriving DecidableEq, Repr, Inhabited

namespace Program

/-- The resources of a file, in its order. -/
structure Stage where
  file : String
  resources : List Shared
  deriving DecidableEq, Repr, Inhabited

/-- A pin: a name, its slot and the file that pins it first. -/
structure Pin where
  name : String
  slot : Int
  file : String
  deriving DecidableEq, Repr, Inhabited

/-- The clash of a resource with earlier pins.  A name is pinned to one slot, and a slot belongs to
one name. -/
def pinClash? (resource file : String) (pins : List Pin) (s : Shared) (slot : Int) :
    Option Diagnostic :=
  match pins.find? fun p => p.name == s.name && p.slot != slot with
  | some p => some ⟨file, s.position, .slotClash ⟨resource, slot, [s.name], some (p.file, p.slot)⟩⟩
  | none =>
    match pins.find? fun p => p.slot == slot && p.name != s.name with
    | some p => some ⟨file, s.position, .slotClash ⟨resource, slot, [p.name, s.name], none⟩⟩
    | none => none

/-- Adds the pin of a resource, if it has one; a pin that is known already is kept as it is. -/
def addPin (resource file : String) (pins : List Pin) (s : Shared) :
    Except Diagnostic (List Pin) :=
  match s.order with
  | none => .ok pins
  | some slot =>
    match pinClash? resource file pins s slot with
    | some d => .error d
    | none =>
      if pins.any (·.name == s.name) then .ok pins else .ok (pins ++ [⟨s.name, slot, file⟩])

/-- Adds the pins of a file. -/
def addStage (resource : String) (pins : List Pin) (stage : Stage) :
    Except Diagnostic (List Pin) :=
  stage.resources.foldlM (addPin resource stage.file) pins

/-- The pins of all files. -/
def pinsOf (resource : String) (stages : List Stage) : Except Diagnostic (List Pin) :=
  stages.foldlM (addStage resource) []

/-- The least slot from a given one on that is not taken; `fuel` bounds the search. -/
def searchSlot (taken : List Int) : Nat → Int → Int
  | 0, next => next
  | fuel + 1, next =>
    if taken.contains next then searchSlot taken fuel (next + 1) else next

/-- Gives the least slot from `next` on to each name that has none, in order. -/
def fill (taken : List Int) : (next : Int) → Slots → List String → Slots
  | _, slots, [] => slots
  | next, slots, name :: rest =>
    if (slots.slot? name).isSome then fill taken next slots rest
    else
      let slot := searchSlot taken taken.length next
      fill taken (slot + 1) (slots ++ [(name, slot)]) rest

/-- The names of a file in the order of their declaration. -/
def Stage.declared (stage : Stage) : List String :=
  (stage.resources.mergeSort fun a b => decide (a.index ≤ b.index)).map Shared.name

/-- The slots of the resources of a class in a program. -/
def slots (resource : String) (stages : List Stage) : Except Diagnostic Slots := do
  let pins ← pinsOf resource stages
  .ok (fill (pins.map Pin.slot) 0 (pins.map fun p => (p.name, p.slot))
    (stages.flatMap Stage.declared))

/-! ## Models -/

/-- Where messages place a buffer: an imported one has no position in the file that imports it. -/
def bufferPosition (m : Model) (b : Buffer) : Position :=
  if b.origin = m.file then b.position else .nowhere

/-- The buffers of a model. -/
def buffersOf (m : Model) : Stage :=
  ⟨m.file, m.buffers.map fun b => ⟨b.name, b.order, b.index, bufferPosition m b⟩⟩

/-- The textures of a model; none is pinned. -/
def texturesOf (m : Model) : Stage :=
  ⟨m.file, m.textures.map fun t => ⟨t.name, none, t.index, t.position⟩⟩

/-- A model whose buffers and textures have the slots of the program. -/
def rebind (buffers textures : Slots) (m : Model) : Model :=
  { m with
    buffers := m.buffers.map fun b => { b with binding := (buffers.slot? b.name).getD b.binding }
    textures := m.textures.map fun t =>
      { t with binding := (textures.slot? t.name).getD t.binding } }

/-- The models of a program with common slots, unless their pins clash. -/
def relocate (ms : List Model) : Except Diagnostic (List Model) := do
  let buffers ← slots ResourceClass.constantBuffer.text (ms.map buffersOf)
  let textures ← slots ResourceClass.texture.text (ms.map texturesOf)
  .ok (ms.map (rebind buffers textures))

/-! ## In place -/

/-- Work on the models of a program, which stay as they are at a failure. -/
abbrev InPlace := ExceptT Diagnostic (StateM (List Model))

/-- Computes the slots of a class of resources and writes them into the models. -/
def writeSlots (resource : String) (stageOf : Model → Stage) (write : Slots → Model → Model) :
    InPlace Unit := do
  let ms ← get
  let slots ← liftExcept (slots resource (ms.map stageOf))
  set (ms.map (write slots))

/-- Writes the slots of the buffers into a model. -/
def writeBuffers (slots : Slots) (m : Model) : Model :=
  { m with buffers := m.buffers.map fun b =>
    { b with binding := (slots.slot? b.name).getD b.binding } }

/-- Writes the slots of the textures into a model. -/
def writeTextures (slots : Slots) (m : Model) : Model :=
  { m with textures := m.textures.map fun t =>
    { t with binding := (slots.slot? t.name).getD t.binding } }

/-- Writes the common slots of a program into its models, those of the buffers before those of the
textures are computed. -/
def relocateInPlace : InPlace Unit := do
  writeSlots ResourceClass.constantBuffer.text buffersOf writeBuffers
  writeSlots ResourceClass.texture.text texturesOf writeTextures

end Program

end AnnotatedShader
