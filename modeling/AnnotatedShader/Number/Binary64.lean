import AnnotatedShader.Number.Numeral

set_option autoImplicit false

/-!
# Binary64 numbers

The values that a floating literal can have: a sign, a significand below 2^53 and a power of two, or
an infinity.  A decimal is read exactly, as a quotient of natural numbers, and rounded once to the
nearest value; a tie goes to the even significand.

No arithmetic of a machine is used, so reading and writing can be computed and proved about.
`ofQuotient` finds the exponent from the sizes of the two numbers and divides once
(`divideNearest`).  A decimal that is too great or too small for a division to matter is told by its
order of magnitude.
-/

namespace AnnotatedShader.Number

/-- The quotient of natural numbers, rounded to the nearest one, a tie to the even one. -/
def divideNearest (num den : Nat) : Nat :=
  let quotient := num / den
  let twice := 2 * (num % den)
  if twice < den then quotient
  else if den < twice then quotient + 1
  else if quotient % 2 = 0 then quotient else quotient + 1

/-- A binary64 value that is a number: `significand * 2 ^ exponent` under a sign, or an infinity. -/
inductive Binary64 where
  | finite (negative : Bool) (significand : Nat) (exponent : Int)
  | infinite (negative : Bool)
  deriving DecidableEq, Repr, Inhabited

namespace Binary64

/-- The least exponent of a finite value. -/
def minExponent : Int := -1074

/-- The greatest exponent of a finite value. -/
def maxExponent : Int := 971

/-- The bound of the significands. -/
def significandBound : Nat := Nat.pow 2 53

/-- `num / den * 2 ^ (-exponent)`, as a quotient of natural numbers. -/
def scaleDown (num den : Nat) (exponent : Int) : Nat × Nat :=
  if 0 ≤ exponent then (num, den * Nat.pow 2 exponent.toNat)
  else (num * Nat.pow 2 (-exponent).toNat, den)

/-- The exponent that leaves 53 bits before the point of a positive quotient, as far as the least
exponent permits. -/
def exponentFor (num den : Nat) : Int :=
  let guess := max minExponent ((Nat.log2 num : Int) - Nat.log2 den - 53)
  let (n, d) := scaleDown num den guess
  if n / d < significandBound then guess else guess + 1

/-- The nearest value to a positive quotient. -/
def ofQuotient (negative : Bool) (num den : Nat) : Binary64 :=
  let exponent := exponentFor num den
  let (n, d) := scaleDown num den exponent
  let significand := divideNearest n d
  let (significand, exponent) :=
    if significand = significandBound then (significandBound / 2, exponent + 1)
    else (significand, exponent)
  if maxExponent < exponent then .infinite negative else .finite negative significand exponent

/-- Zero, with a sign. -/
def zero (negative : Bool) : Binary64 := .finite negative 0 minExponent

/-- The nearest value to `digits * 10 ^ scale`, where `count` is the number of decimal digits of
`digits`.  A value beyond every binary64 or below half the least one is told by its order of
magnitude alone. -/
def ofDecimal (negative : Bool) (digits count : Nat) (scale : Int) : Binary64 :=
  if digits = 0 then zero negative
  else if 309 < (count : Int) + scale then .infinite negative
  else if (count : Int) + scale < -323 then zero negative
  else if 0 ≤ scale then ofQuotient negative (digits * Nat.pow 10 scale.toNat) 1
  else ofQuotient negative digits (Nat.pow 10 (-scale).toNat)

/-- The exponent that a text behind `e` denotes: an optional sign and digits. -/
def exponentOfText : List Char → Int
  | '+' :: digits => natOfDigits digits
  | text => intOfDigits text

/-- The value of a decimal numeral: an optional minus sign, digits, an optional point with digits
and an optional exponent. -/
def ofText (text : List Char) : Binary64 :=
  let negative := text.head? == some '-'
  let body := unsigned text
  let isExponentMark := fun c => c == 'e' || c == 'E'
  let mantissa := body.takeWhile fun c => !isExponentMark c
  let exponent := (body.dropWhile fun c => !isExponentMark c).drop 1
  let whole := mantissa.takeWhile (· != '.')
  let fraction := (mantissa.dropWhile (· != '.')).drop 1
  let digits := (whole ++ fraction).dropWhile (· == '0')
  ofDecimal negative (natOfDigits digits) digits.length
    (exponentOfText exponent - (fraction.length : Int))

end Binary64

end AnnotatedShader.Number
