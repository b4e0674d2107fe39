import AnnotatedShader.Number.Binary64

set_option autoImplicit false

/-!
# The shortest decimal of a binary64 value

A value is written with the fewest decimal digits that read back as the same value, and among those
with the nearest; of two equally near ones the even is taken.  All arithmetic is on natural numbers.
The reals that round to a value form an interval, whose ends belong to it exactly when the
significand is even.

Candidates are the points of a decimal grid that are nearest to the value, for one digit and then
for more, until one of them lies in the interval; seventeen digits are always enough.  `FloatLayout`
says where the point goes: very great and very small values are written with an exponent.
-/

namespace AnnotatedShader.Number

/-- A positive rational number, as a quotient. -/
structure Quotient where
  num : Nat
  den : Nat
  deriving DecidableEq, Repr, Inhabited

namespace Quotient

/-- The order of quotients with positive denominators. -/
def le (a b : Quotient) : Bool := a.num * b.den ≤ b.num * a.den

/-- The strict order of quotients with positive denominators. -/
def lt (a b : Quotient) : Bool := a.num * b.den < b.num * a.den

/-- `significand * base ^ exponent`. -/
def scaled (significand base : Nat) (exponent : Int) : Quotient :=
  if 0 ≤ exponent then ⟨significand * Nat.pow base exponent.toNat, 1⟩
  else ⟨significand, Nat.pow base (-exponent).toNat⟩

end Quotient

/-- The interval of reals that round to a value. -/
structure RoundingInterval where
  low : Quotient
  value : Quotient
  high : Quotient
  closed : Bool
  deriving DecidableEq, Repr, Inhabited

namespace RoundingInterval

/-- The interval around `significand * 2 ^ exponent`.  Below a power of two the values lie twice as
dense as above it. -/
def around (significand : Nat) (exponent : Int) : RoundingInterval :=
  let gapBelow :=
    if significand = Binary64.significandBound / 2 && Binary64.minExponent < exponent then 1 else 2
  ⟨.scaled (4 * significand - gapBelow) 2 (exponent - 2), .scaled significand 2 exponent,
    .scaled (4 * significand + 2) 2 (exponent - 2), significand % 2 == 0⟩

/-- Whether a decimal rounds to the value of the interval. -/
def contains (i : RoundingInterval) (q : Quotient) : Bool :=
  if i.closed then i.low.le q && q.le i.high else i.low.lt q && q.lt i.high

end RoundingInterval

/-- `digits * 10 ^ scale`. -/
structure Decimal where
  digits : Nat
  scale : Int
  deriving DecidableEq, Repr, Inhabited

/-- A decimal as a quotient. -/
def Decimal.value (d : Decimal) : Quotient := .scaled d.digits 10 d.scale

/-- The number of steps by ten that a quotient below one lies below one; `fuel` bounds the
search. -/
def stepsBelowOne : Nat → Quotient → Nat
  | 0, _ => 0
  | fuel + 1, q => if q.den ≤ q.num then 0 else stepsBelowOne fuel ⟨q.num * 10, q.den⟩ + 1

/-- The exponent of ten of the leading digit. -/
def leadingExponent (q : Quotient) : Int :=
  if q.den ≤ q.num then ((Nat.toDigits 10 (q.num / q.den)).length : Int) - 1
  else -(stepsBelowOne (Nat.log2 q.den + 1) q : Int)

/-- The multiple of `10 ^ scale` nearest to the value of an interval, among the two around it that
lie in the interval. -/
def nearestOnGrid? (i : RoundingInterval) (scale : Int) : Option Decimal :=
  let unit := Quotient.scaled 1 10 scale
  let num := i.value.num * unit.den
  let den := i.value.den * unit.num
  let below : Decimal := ⟨num / den, scale⟩
  let above : Decimal := ⟨num / den + 1, scale⟩
  let nearest : Decimal := ⟨divideNearest num den, scale⟩
  if i.contains nearest.value then some nearest
  else if i.contains below.value then some below
  else if i.contains above.value then some above
  else none

/-- The shortest decimal of a positive finite value.  Seventeen digits always read back. -/
def shortest (significand : Nat) (exponent : Int) : Decimal :=
  let interval := RoundingInterval.around significand exponent
  let leading := leadingExponent interval.value
  let candidates := (List.range 17).filterMap fun (n : Nat) => nearestOnGrid? interval (leading - n)
  candidates.head?.getD ⟨0, 0⟩

/-- Drops the zeros at the end of a numeral. -/
def dropTrailingZeros (digits : List Char) : List Char :=
  (digits.reverse.dropWhile (· == '0')).reverse

/-! ## Layout -/

/-- How the decimal of a floating number is laid out. -/
structure FloatLayout where
  /-- the least exponent of the leading digit that is written with leading zeros -/
  lowestPositional : Int
  /-- the greatest exponent of the leading digit that is written without an exponent -/
  highestPositional : Int
  /-- the text of positive infinity -/
  infinity : String
  deriving DecidableEq, Repr, Inhabited

/-- The digits of an exponent: two at least. -/
def exponentDigits (n : Nat) : List Char :=
  let digits := Nat.toDigits 10 n
  if digits.length < 2 then '0' :: digits else digits

/-- Lays out significant digits whose first stands at an exponent of ten.  A positional number keeps
a digit behind its point; an exponent has a sign and two digits at least. -/
def FloatLayout.place (layout : FloatLayout) (digits : List Char) (leading : Int) : List Char :=
  if leading < layout.lowestPositional || layout.highestPositional < leading then
    let sign := if leading < 0 then '-' else '+'
    let fraction := digits.drop 1
    digits.take 1 ++ (if fraction.isEmpty then [] else '.' :: fraction) ++
      'e' :: sign :: exponentDigits leading.natAbs
  else if leading < 0 then
    '0' :: '.' :: List.replicate ((-leading).toNat - 1) '0' ++ digits
  else
    let wholeLength := leading.toNat + 1
    let whole := digits.take wholeLength ++ List.replicate (wholeLength - digits.length) '0'
    let fraction := digits.drop wholeLength
    whole ++ '.' :: (if fraction.isEmpty then ['0'] else fraction)

/-- The text of a positive number or zero. -/
def FloatLayout.magnitude (layout : FloatLayout) (significand : Nat) (exponent : Int) : List Char :=
  if significand = 0 then ['0', '.', '0']
  else
    let d := shortest significand exponent
    let digits := Nat.toDigits 10 d.digits
    layout.place (dropTrailingZeros digits) (d.scale + digits.length - 1)

/-- The text of a value. -/
def FloatLayout.render (layout : FloatLayout) : Binary64 → String
  | .finite negative significand exponent =>
    String.ofList ((if negative then ['-'] else []) ++ layout.magnitude significand exponent)
  | .infinite negative => (if negative then "-" else "") ++ layout.infinity

/-- Floating numbers in listings: positional from 0.0001 to below 10^16. -/
def FloatLayout.listing : FloatLayout := ⟨-4, 15, "inf"⟩

/-- Floating numbers in documents: as in listings, with the infinities spelled out. -/
def FloatLayout.document : FloatLayout := ⟨-4, 15, "Infinity"⟩

end AnnotatedShader.Number
