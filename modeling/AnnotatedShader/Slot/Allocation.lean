import AnnotatedShader.Diagnostic

set_option autoImplicit false

/-!
# Allocation of slots

Resources of one class ask for consecutive slots.  A request may be pinned to its first slot; the
others get, in the order of their declaration, the least start from which all their slots are free.
Two pinned requests must not claim one slot.  A request is made at a place, which serves to report a
conflict and for nothing else.

Pins are compared first, and the least slot that two of them hold is the conflict, with all who hold
it.  The others are then placed one behind the other: the search for a request goes on behind the
one before it, so a gap that was too narrow for one is not filled by a later one.
-/

namespace AnnotatedShader

/-- A request for `width` consecutive slots. -/
structure SlotRequest (Place : Type) where
  name : String
  order : Option Int
  index : Int
  place : Place
  width : Int
  deriving DecidableEq, Repr, Inhabited

/-- Consecutive slots that a pinned request claims. -/
structure Claim (Place : Type) where
  name : String
  start : Int
  width : Int
  place : Place
  deriving DecidableEq, Repr, Inhabited

/-- A slot that several claims hold. -/
structure Conflict (Place : Type) where
  slot : Int
  holders : List (Claim Place)
  deriving DecidableEq, Repr, Inhabited

variable {Place : Type}

namespace Claim

/-- Whether a claim holds a slot. -/
def covers (c : Claim Place) (slot : Int) : Bool := c.start ≤ slot && slot < c.start + c.width

/-- Whether a claim holds one of `width` slots from a start on. -/
def meets (c : Claim Place) (start width : Int) : Bool :=
  0 < c.width && 0 < width && c.start < start + width && start < c.start + c.width

/-- The first slot behind a claim. -/
def ending (c : Claim Place) : Int := c.start + c.width

end Claim

namespace Conflict

/-- Where a conflict is reported: at the second of its claims. -/
def place? (c : Conflict Place) : Option Place := c.holders[1]?.map Claim.place

/-- What is reported of a conflict in a resource class. -/
def clash (c : Conflict Place) (resource : String) : SlotClash :=
  ⟨resource, c.slot, c.holders.map Claim.name, none⟩

end Conflict

/-- Names with their slots; a name that is set twice keeps its place and takes the new slot. -/
abbrev Slots := List (String × Int)

namespace Slots

/-- Sets the slot of a name. -/
def set (slots : Slots) (name : String) (slot : Int) : Slots :=
  if slots.any (·.1 == name) then
    slots.map fun entry => if entry.1 == name then (name, slot) else entry
  else slots ++ [(name, slot)]

/-- The slot of a name. -/
def slot? (slots : Slots) (name : String) : Option Int := slots.lookup name

end Slots

namespace SlotRequest

/-- The claim of a pinned request. -/
def claim? (r : SlotRequest Place) : Option (Claim Place) :=
  r.order.map fun start => ⟨r.name, start, r.width, r.place⟩

/-- The claims of all pinned requests, in order. -/
def claims (rs : List (SlotRequest Place)) : List (Claim Place) := rs.filterMap claim?

/-- The claims that hold a slot. -/
def owners (cs : List (Claim Place)) (slot : Int) : List (Claim Place) := cs.filter (·.covers slot)

/-- The least slot that more than one claim holds.  It is the start of one of them. -/
def contested? (cs : List (Claim Place)) : Option Int :=
  ((cs.map Claim.start).filter fun slot => 1 < (owners cs slot).length).min?

/-- Whether `width` slots from a start on are free of claims. -/
def isFree (cs : List (Claim Place)) (width start : Int) : Bool := !cs.any (·.meets start width)

/-- The least free start from a given one on; `fuel` bounds the search. -/
def searchFree (cs : List (Claim Place)) (width : Int) : Nat → Int → Int
  | 0, start => start
  | fuel + 1, start =>
    if isFree cs width start then start else searchFree cs width fuel (start + 1)

/-- The first slot behind all claims. -/
def endOfClaims (cs : List (Claim Place)) : Int := (cs.map Claim.ending).foldl max 0

/-- The least free start from a given one on.  Behind all claims every start is free. -/
def firstFree (cs : List (Claim Place)) (width start : Int) : Int :=
  searchFree cs width (endOfClaims cs - start).toNat start

/-- Gives unpinned requests their slots one behind the other. -/
def placeUnpinned (cs : List (Claim Place)) :
    (next : Int) → List (SlotRequest Place) → List (String × Int)
  | _, [] => []
  | next, r :: rest =>
    let start := firstFree cs r.width next
    (r.name, start) :: placeUnpinned cs (start + r.width) rest

/-- The unpinned requests in the order of their declaration. -/
def unpinned (rs : List (SlotRequest Place)) : List (SlotRequest Place) :=
  (rs.filter fun r => r.order.isNone).mergeSort fun a b => decide (a.index ≤ b.index)

/-- The slots of all requests, unless two claims meet. -/
def allocate (rs : List (SlotRequest Place)) : Except (Conflict Place) Slots :=
  let cs := claims rs
  match contested? cs with
  | some slot => .error ⟨slot, owners cs slot⟩
  | none =>
    .ok ((cs.map (fun c => (c.name, c.start)) ++ placeUnpinned cs 0 (unpinned rs)).foldl
      (fun slots entry => slots.set entry.1 entry.2) [])

end SlotRequest

end AnnotatedShader
