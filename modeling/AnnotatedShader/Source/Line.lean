import AnnotatedShader.Text.Blank
import AnnotatedShader.Text.Line

set_option autoImplicit false

/-!
# The roles of the lines of a source

A line whose trimmed text is `#sal` is a sentinel; sentinels open and close blocks in turn.  A line
between an opening and a closing sentinel is an annotation.  Outside the blocks a line is a stage
directive, if it reads `#stage` and a value, and body text otherwise.

`rolesFrom` goes through the lines with the one bit of state that there is, whether a block is open.
-/

namespace AnnotatedShader.Source

open AnnotatedShader.Text

/-- What a line is for.  A directive holds its value, which need not name a stage. -/
inductive LineRole where
  | opening
  | closing
  | annotated
  | directive (value : String)
  | body
  deriving DecidableEq, Repr, Inhabited

/-- The text that a sentinel consists of, but for blanks around it. -/
def sentinel : String := "#sal"

/-- Whether a line opens or closes a block. -/
def isSentinel (line : String) : Bool := trim line.toList == sentinel.toList

/-- The value of a stage directive.  The word `stage` may stand apart from its `#`, and a single
space ends it. -/
def directiveValue? (line : String) : Option String :=
  match trim line.toList with
  | '#' :: rest =>
    let content := trim rest
    if content.takeWhile (· != ' ') == "stage".toList then
      some (String.ofList (trim ((content.dropWhile (· != ' ')).drop 1)))
    else none
  | _ => none

/-- The role of a line outside all blocks. -/
def outsideRole (line : String) : LineRole :=
  if isSentinel line then .opening
  else
    match directiveValue? line with
    | some value => .directive value
    | none => .body

/-- The role of a line in a block. -/
def insideRole (line : String) : LineRole :=
  if isSentinel line then .closing else .annotated

/-- The roles of consecutive lines; `inside` tells whether a block is open in front of them. -/
def rolesFrom : (inside : Bool) → List String → List LineRole
  | _, [] => []
  | true, line :: rest => insideRole line :: rolesFrom (!isSentinel line) rest
  | false, line :: rest => outsideRole line :: rolesFrom (isSentinel line) rest

/-- The roles of the lines of a source. -/
def roles (ls : List String) : List LineRole := rolesFrom false ls

theorem rolesFrom_length (inside : Bool) (ls : List String) :
    (rolesFrom inside ls).length = ls.length := by
  induction ls generalizing inside with
  | nil => cases inside <;> rfl
  | cons line rest ih => cases inside <;> simp [rolesFrom, ih]

/-- The column of the `#` that a directive or sentinel starts with. -/
def markColumn (line : String) : Nat := (line.toList.takeWhile (· != '#')).length + 1

end AnnotatedShader.Source
