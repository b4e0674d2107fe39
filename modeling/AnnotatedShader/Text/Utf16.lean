set_option autoImplicit false

/-!
# UTF-16 code units

A character beyond the first 65536 code points is a pair of code units: a high and a low surrogate.
`ofUnits` accepts exactly the sequences in which every surrogate has its partner.

Documents escape characters by code units, so both directions are needed there.
-/

namespace AnnotatedShader.Text

/-- The code units of a character. -/
def toUnits (c : Char) : List Nat :=
  let code := c.toNat
  if code < 0x10000 then [code]
  else [0xD800 + (code - 0x10000) / 0x400, 0xDC00 + (code - 0x10000) % 0x400]

/-- Whether a unit is the first of a pair. -/
def isHighSurrogate (unit : Nat) : Bool := 0xD800 ≤ unit && unit < 0xDC00

/-- Whether a unit is the second of a pair. -/
def isLowSurrogate (unit : Nat) : Bool := 0xDC00 ≤ unit && unit < 0xE000

/-- The characters that code units denote, unless a surrogate stands alone. -/
def ofUnits : List Nat → Option (List Char)
  | [] => some []
  | unit :: rest =>
    if isHighSurrogate unit then
      match rest with
      | low :: rest =>
        if isLowSurrogate low then
          (ofUnits rest).map
            (Char.ofNat (0x10000 + (unit - 0xD800) * 0x400 + (low - 0xDC00)) :: ·)
        else none
      | [] => none
    else if isLowSurrogate unit then none
    else (ofUnits rest).map (Char.ofNat unit :: ·)

end AnnotatedShader.Text
