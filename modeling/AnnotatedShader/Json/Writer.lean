import AnnotatedShader.Json.Basic
import AnnotatedShader.Number.Shortest
import AnnotatedShader.Text.Quoted
import AnnotatedShader.Text.Utf16

set_option autoImplicit false

/-!
# Writing JSON

A document is ASCII: a string shows the printable ASCII characters as they are and escapes the
others by code units.  Each item of an array and each member of an object has a line of its own, two
columns further in than its container; an empty container is a pair of brackets.

`write` takes the depth at which a value stands, and `document` writes a value at the left margin.
A floating number is written with its shortest decimal; an infinity gets a name that no grammar of
JSON knows.
-/

namespace AnnotatedShader.Json

/-- One character in a string. -/
def writeChar (c : Char) : List Char :=
  if c = '"' then ['\\', '"']
  else if c = '\\' then ['\\', '\\']
  else if c = '\n' then ['\\', 'n']
  else if c = '\r' then ['\\', 'r']
  else if c = '\t' then ['\\', 't']
  else if c = '\x0c' then ['\\', 'f']
  else if c = '\x08' then ['\\', 'b']
  else if 0x20 ≤ c.toNat && c.toNat < 0x7F then [c]
  else (Text.toUnits c).flatMap fun unit => '\\' :: 'u' :: Text.hexDigits 4 unit

/-- A string between its quotes. -/
def writeString (s : String) : List Char := '"' :: s.toList.flatMap writeChar ++ ['"']

/-- A new line at a depth of containers. -/
def newLine (depth : Nat) : List Char := '\n' :: List.replicate (2 * depth) ' '

/-- The text of a value without parts. -/
def writeNumber (x : Number.Binary64) : List Char :=
  (Number.FloatLayout.document.render x).toList

mutual

/-- The text of a value at a depth of containers. -/
def write (depth : Nat) : Json → List Char
  | .null => "null".toList
  | .bool true => "true".toList
  | .bool false => "false".toList
  | .int n => (toString n).toList
  | .float x => writeNumber x
  | .str s => writeString s
  | .array [] => ['[', ']']
  | .array (item :: rest) =>
    '[' :: newLine (depth + 1) ++ write (depth + 1) item ++ writeItems (depth + 1) rest ++
      newLine depth ++ [']']
  | .object [] => ['\x7b', '\x7d']
  | .object ((name, value) :: rest) =>
    '\x7b' :: newLine (depth + 1) ++ writeString name ++ ':' :: ' ' :: write (depth + 1) value ++
      writeMembers (depth + 1) rest ++ newLine depth ++ ['\x7d']

/-- The items of an array behind its first one. -/
def writeItems (depth : Nat) : List Json → List Char
  | [] => []
  | item :: rest => ',' :: newLine depth ++ write depth item ++ writeItems depth rest

/-- The members of an object behind its first one. -/
def writeMembers (depth : Nat) : List (String × Json) → List Char
  | [] => []
  | (name, value) :: rest =>
    ',' :: newLine depth ++ writeString name ++ ':' :: ' ' :: write depth value ++
      writeMembers depth rest

end

/-- A document: a value and a line feed. -/
def document (j : Json) : String := String.ofList (write 0 j ++ ['\n'])

end AnnotatedShader.Json
