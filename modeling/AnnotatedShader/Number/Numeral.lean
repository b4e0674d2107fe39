import AnnotatedShader.Text.Digit

set_option autoImplicit false

/-!
# Numerals

An integer is read from its decimal digits and written with them.  Either way at most `digitLimit`
digits are handled: a longer numeral is refused, leading zeros counted, the sign not.

Reading gives nothing for a numeral that is too long (`readLiteral?`), and `isWritable` says whether
a number can be written.  Whoever reads or writes a number decides what failure that is.
-/

namespace AnnotatedShader.Number

/-- The greatest number of digits of an integer that is read or written. -/
def digitLimit : Nat := 4300

/-- The number that decimal digits denote, the highest first. -/
def ofDigits (digits : List Nat) : Nat := digits.foldl (fun n d => 10 * n + d) 0

/-- The value of an ASCII digit. -/
def digitValue (c : Char) : Nat := c.toNat - '0'.toNat

/-- The natural number that ASCII digits denote. -/
def natOfDigits (digits : List Char) : Nat := ofDigits (digits.map digitValue)

/-- The integer that an optional minus sign and ASCII digits denote. -/
def intOfDigits : List Char → Int
  | '-' :: digits => -(natOfDigits digits : Int)
  | digits => natOfDigits digits

/-- The digits of a numeral, without its minus sign. -/
def unsigned : List Char → List Char
  | '-' :: digits => digits
  | digits => digits

/-- Reads an integer literal, unless it has too many digits. -/
def readLiteral? (text : String) : Option Int :=
  if (unsigned text.toList).length ≤ digitLimit then some (intOfDigits text.toList) else none

/-- Whether an integer can be written within the limit. -/
def isWritable (n : Int) : Bool := n.natAbs < Nat.pow 10 digitLimit

end AnnotatedShader.Number
