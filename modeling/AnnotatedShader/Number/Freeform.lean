import AnnotatedShader.Number.Numeral
import AnnotatedShader.Text.Blank

set_option autoImplicit false

/-!
# Integers as people write them

An integer on a command line may have a sign, digits of any script, single underscores between its
digits, and blanks around it.  The information separators are no blanks here.

Such an integer is subject to the limit of digits as well: what is too long is not read.
-/

namespace AnnotatedShader.Number

open AnnotatedShader.Text

/-- A blank that may stand around an integer. -/
def isMargin (c : Char) : Bool :=
  let code := c.toNat
  (9 ≤ code && code ≤ 13) || code == 32 || (0x7F < code && isBlank c)

/-- Drops the blanks around an integer. -/
def dropMargins (text : List Char) : List Char :=
  ((text.dropWhile isMargin).reverse.dropWhile isMargin).reverse

/-- The values of digits, at least one, with single underscores between them. -/
def groupedDigits? : List Char → Option (List Nat)
  | [] => none
  | [c] => (decimalValue? c).map fun d => [d]
  | c :: '_' :: rest => do
    let d ← decimalValue? c
    let ds ← groupedDigits? rest
    some (d :: ds)
  | c :: rest => do
    let d ← decimalValue? c
    let ds ← groupedDigits? rest
    some (d :: ds)

/-- The natural number that digits denote, unless they are too many. -/
def readGrouped? (text : List Char) : Option Nat := do
  let ds ← groupedDigits? text
  if ds.length ≤ digitLimit then some (ofDigits ds) else none

/-- Reads an integer in free form. -/
def readFreeform? (text : String) : Option Int :=
  match dropMargins text.toList with
  | '-' :: rest => (readGrouped? rest).map fun n => -(n : Int)
  | '+' :: rest => (readGrouped? rest).map fun n => (n : Int)
  | rest => (readGrouped? rest).map fun n => (n : Int)

end AnnotatedShader.Number
