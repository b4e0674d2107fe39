set_option autoImplicit false

/-!
# Blank characters and trimming

Blank is what a reader takes for white space in any script (Unicode 14): the ASCII blanks, the four
information separators and the wide spaces.  Trimming removes blanks from an end of a text and
nothing else.
-/

namespace AnnotatedShader.Text

/-- White space of any script. -/
def isBlank (c : Char) : Bool :=
  let code := c.toNat
  (9 ≤ code && code ≤ 13) || (28 ≤ code && code ≤ 32) || code == 0x85 || code == 0xA0 ||
    code == 0x1680 || (0x2000 ≤ code && code ≤ 0x200A) || code == 0x2028 || code == 0x2029 ||
    code == 0x202F || code == 0x205F || code == 0x3000

/-- Drops the blanks in front. -/
def trimStart (text : List Char) : List Char := text.dropWhile isBlank

/-- Drops the blanks at the end. -/
def trimEnd (text : List Char) : List Char := (text.reverse.dropWhile isBlank).reverse

/-- Drops the blanks at both ends. -/
def trim (text : List Char) : List Char := trimEnd (trimStart text)

end AnnotatedShader.Text
