import AnnotatedShader.Number.Numeral
import AnnotatedShader.Text.Quoted

set_option autoImplicit false

/-!
# Attributes

An attribute is a slot number, the packing tag or a reference to a sampler.  `Pack` is the tag,
`Order(n)` and `ORDER_n` are slot numbers, and every other name refers to a sampler.  The digits of
`ORDER_n` may be of any script, but they must be decimal ones.

What an attribute may stand at is decided when the model is built; here it only gets its meaning.
The second form is recognised by its digits, so a name that looks like it and has digits of another
kind is a fault and not a sampler.
-/

namespace AnnotatedShader

/-- What a declaration may carry behind a colon. -/
inductive Attribute where
  | order (slot : Int)
  | pack
  | sampler (name : String)
  deriving DecidableEq, Repr, Inhabited

/-- Why a spelling is no attribute. -/
inductive AttributeFault where
  | unknownCall (name : String) (argument : Int)
  | notDecimal (digits : String)
  | tooManyDigits (count : Nat)
  deriving DecidableEq, Repr, Inhabited

/-- The greatest length at which a message shows a text that is no number. -/
def shownLength : Nat := 200

/-- The message for a spelling that is no attribute. -/
def AttributeFault.message : AttributeFault → String
  | .unknownCall name argument =>
    "unknown attribute '" ++ name ++ "(" ++ toString argument ++ ")'"
  | .notDecimal digits =>
    "invalid literal for int() with base 10: " ++
      String.ofList ((Text.quoted digits).toList.take shownLength)
  | .tooManyDigits count =>
    "Exceeds the limit (" ++ toString Number.digitLimit ++
      " digits) for integer string conversion: value has " ++ toString count ++
      " digits; use sys.set_int_max_str_digits() to increase the limit"

namespace Attribute

/-- How an attribute is shown. -/
def render : Attribute → String
  | .order slot => "Order(" ++ toString slot ++ ")"
  | .pack => "Pack"
  | .sampler name => name

/-- The number that the digits behind `ORDER_` denote. -/
def orderNumber (digits : List Char) : Except AttributeFault Int :=
  let values := digits.map Text.decimalValue?
  let decimal := values.takeWhile Option.isSome
  if Number.digitLimit < decimal.length then .error (.tooManyDigits decimal.length)
  else if decimal.length < digits.length then .error (.notDecimal (String.ofList digits))
  else .ok (Number.ofDigits (decimal.filterMap id))

/-- What `ORDER_` stands in front of, if a name begins with it and goes on with digits only. -/
def orderDigits? (name : List Char) : Option (List Char) :=
  if "ORDER_".toList.isPrefixOf name then
    let digits := name.drop "ORDER_".length
    if digits.isEmpty || !digits.all Text.isDigitLike then none else some digits
  else none

/-- The attribute that a name alone spells. -/
def ofName (name : String) : Except AttributeFault Attribute :=
  if name = "Pack" then .ok .pack
  else
    match orderDigits? name.toList with
    | some digits => (orderNumber digits).map .order
    | none => .ok (.sampler name)

/-- The attribute that a name with an argument spells. -/
def ofCall (name : String) (argument : Int) : Except AttributeFault Attribute :=
  if name = "Order" then .ok (.order argument) else .error (.unknownCall name argument)

theorem ofCall_eq_ok_iff {name : String} {argument : Int} {a : Attribute} :
    ofCall name argument = .ok a ↔ name = "Order" ∧ a = .order argument := by
  by_cases h : name = "Order" <;> simp [ofCall, h, eq_comm]

end Attribute

end AnnotatedShader
