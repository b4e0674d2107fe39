import AnnotatedShader.Json.Basic
import AnnotatedShader.Text.Utf16

set_option autoImplicit false

/-!
# Reading JSON

A reader of JSON texts as RFC 8259 defines them.  A number without a point and without an exponent
is an integer.  The members of an object keep their order, and a name may occur more than once.

The reader follows the grammar of the standard: blanks are skipped around every token, a string is
read as code units and put together afterwards, since an escape may be one half of a pair, and a
number is cut into its three parts.  Values are nested, and the reader is given the length of the
text as fuel.
-/

namespace AnnotatedShader.Json

/-- Drops the blanks in front: space, tab, line feed and carriage return. -/
def skipBlanks (text : List Char) : List Char :=
  text.dropWhile fun c => c == ' ' || c == '\t' || c == '\n' || c == '\r'

/-- Drops a given beginning. -/
def dropStart? (start text : List Char) : Option (List Char) :=
  if start.isPrefixOf text then some (text.drop start.length) else none

/-- The value of a hexadecimal digit. -/
def hexValue? (c : Char) : Option Nat :=
  if c.isDigit then some (c.toNat - 0x30)
  else if 'a' ≤ c && c ≤ 'f' then some (c.toNat - 0x61 + 10)
  else if 'A' ≤ c && c ≤ 'F' then some (c.toNat - 0x41 + 10)
  else none

/-- The number that four hexadecimal digits denote. -/
def hexUnit? (a b c d : Char) : Option Nat := do
  let a ← hexValue? a
  let b ← hexValue? b
  let c ← hexValue? c
  let d ← hexValue? d
  some (((a * 16 + b) * 16 + c) * 16 + d)

/-- The character that a letter behind a backslash stands for. -/
def escaped? (c : Char) : Option Char :=
  if c = '"' then some '"'
  else if c = '\\' then some '\\'
  else if c = '/' then some '/'
  else if c = 'b' then some '\x08'
  else if c = 'f' then some '\x0c'
  else if c = 'n' then some '\n'
  else if c = 'r' then some '\r'
  else if c = 't' then some '\t'
  else none

/-- The code units of a string behind its opening quote, and what follows its closing one. -/
def readUnits : List Char → Option (List Nat × List Char)
  | [] => none
  | '"' :: rest => some ([], rest)
  | '\\' :: 'u' :: a :: b :: c :: d :: rest => do
    let unit ← hexUnit? a b c d
    let (units, rest) ← readUnits rest
    some (unit :: units, rest)
  | '\\' :: e :: rest => do
    let c ← escaped? e
    let (units, rest) ← readUnits rest
    some (c.toNat :: units, rest)
  | c :: rest =>
    if c.toNat < 0x20 || c = '\\' then none
    else do
      let (units, rest) ← readUnits rest
      some (Text.toUnits c ++ units, rest)

/-- A string behind its opening quote. -/
def readString (text : List Char) : Option (String × List Char) := do
  let (units, rest) ← readUnits text
  let cs ← Text.ofUnits units
  some (String.ofList cs, rest)

/-- The digits at the front of a text, of which there must be one. -/
def readDigits (text : List Char) : Option (List Char × List Char) :=
  let digits := text.takeWhile Char.isDigit
  if digits.isEmpty then none else some (digits, text.drop digits.length)

/-- The whole part of a number: a zero, or digits that start with no zero. -/
def readWhole : List Char → Option (List Char × List Char)
  | '0' :: rest => some (['0'], rest)
  | text => readDigits text

/-- The fraction of a number, which may be missing. -/
def readFraction : List Char → Option (List Char × List Char)
  | '.' :: rest => (readDigits rest).map fun (digits, rest) => ('.' :: digits, rest)
  | rest => some ([], rest)

/-- The exponent of a number, which may be missing. -/
def readExponent : List Char → Option (List Char × List Char)
  | [] => some ([], [])
  | e :: rest =>
    if e = 'e' || e = 'E' then
      match rest with
      | '+' :: rest => (readDigits rest).map fun (digits, rest) => ('e' :: digits, rest)
      | '-' :: rest => (readDigits rest).map fun (digits, rest) => ('e' :: '-' :: digits, rest)
      | rest => (readDigits rest).map fun (digits, rest) => ('e' :: digits, rest)
    else some ([], e :: rest)

/-- A number at the front of a text. -/
def readNumber (text : List Char) : Option (Json × List Char) := do
  let sign := if text.head? == some '-' then ['-'] else []
  let (whole, rest) ← readWhole (text.drop sign.length)
  let (fraction, rest) ← readFraction rest
  let (exponent, rest) ← readExponent rest
  if fraction.isEmpty && exponent.isEmpty then
    some (.int (Number.intOfDigits (sign ++ whole)), rest)
  else some (.float (Number.Binary64.ofText (sign ++ whole ++ fraction ++ exponent)), rest)

mutual

/-- A value behind blanks.  Each reader spends fuel on every part it reads. -/
def readValue : Nat → List Char → Option (Json × List Char)
  | 0, _ => none
  | fuel + 1, text =>
    match skipBlanks text with
    | '"' :: rest => (readString rest).map fun (s, rest) => (.str s, rest)
    | '[' :: rest =>
      match skipBlanks rest with
      | ']' :: rest => some (.array [], rest)
      | rest => (readItems fuel rest).map fun (items, rest) => (.array items, rest)
    | '\x7b' :: rest =>
      match skipBlanks rest with
      | '\x7d' :: rest => some (.object [], rest)
      | rest => (readMembers fuel rest).map fun (members, rest) => (.object members, rest)
    | 'n' :: rest => (dropStart? "ull".toList rest).map fun rest => (.null, rest)
    | 't' :: rest => (dropStart? "rue".toList rest).map fun rest => (.bool true, rest)
    | 'f' :: rest => (dropStart? "alse".toList rest).map fun rest => (.bool false, rest)
    | rest => readNumber rest

/-- The items of an array up to its closing bracket. -/
def readItems : Nat → List Char → Option (List Json × List Char)
  | 0, _ => none
  | fuel + 1, text => do
    let (item, rest) ← readValue fuel text
    match skipBlanks rest with
    | ',' :: rest => do
      let (items, rest) ← readItems fuel rest
      some (item :: items, rest)
    | ']' :: rest => some ([item], rest)
    | _ => none

/-- The members of an object up to its closing brace. -/
def readMembers : Nat → List Char → Option (List (String × Json) × List Char)
  | 0, _ => none
  | fuel + 1, text =>
    match skipBlanks text with
    | '"' :: rest => do
      let (name, rest) ← readString rest
      match skipBlanks rest with
      | ':' :: rest => do
        let (value, rest) ← readValue fuel rest
        match skipBlanks rest with
        | ',' :: rest => do
          let (members, rest) ← readMembers fuel rest
          some ((name, value) :: members, rest)
        | '\x7d' :: rest => some ([(name, value)], rest)
        | _ => none
      | _ => none
    | _ => none

end

/-- Reads a text that holds one value and blanks around it. -/
def parse (text : String) : Option Json := do
  let (value, rest) ← readValue (text.toList.length + 1) text.toList
  if (skipBlanks rest).isEmpty then some value else none

end AnnotatedShader.Json
