import AnnotatedShader.Number.Binary64

set_option autoImplicit false

/-!
# JSON values

A JSON value keeps the members of an object in their order.  Integers and floating numbers are
different values, as they are written differently.

`Json.integers` are the integers anywhere in a value.  A document is refused when one of them has
too many digits, so they are asked for before anything is written.
-/

namespace AnnotatedShader

/-- A JSON value. -/
inductive Json where
  | null
  | bool (b : Bool)
  | int (n : Int)
  | float (x : Number.Binary64)
  | str (s : String)
  | array (items : List Json)
  | object (members : List (String × Json))
  deriving Repr, Inhabited

namespace Json

/-- The value of the first member of a name. -/
def member? (j : Json) (name : String) : Option Json :=
  match j with
  | .object members => members.lookup name
  | _ => none

mutual

/-- The integers in a value, in the order of writing. -/
def integers : Json → List Int
  | .int n => [n]
  | .array items => integersOfItems items
  | .object members => integersOfMembers members
  | _ => []

/-- The integers in the items of an array. -/
def integersOfItems : List Json → List Int
  | [] => []
  | item :: rest => item.integers ++ integersOfItems rest

/-- The integers in the members of an object. -/
def integersOfMembers : List (String × Json) → List Int
  | [] => []
  | (_, value) :: rest => value.integers ++ integersOfMembers rest

end

end Json

end AnnotatedShader
