set_option autoImplicit false

/-!
# Positions in a file

Lines and columns count from one, a column counts code points, and only the line feed starts a new
line.  The position `0:0` stands for no place in the text.

A position moves along a text by `advance`, which runs along a concatenation part by part
(`advance_append`).  Positions are ordered by line and then by column.
-/

namespace AnnotatedShader

/-- A line and a column. -/
structure Position where
  line : Nat
  column : Nat
  deriving DecidableEq, Repr, Inhabited

namespace Position

/-- The first character of a text. -/
def start : Position := ⟨1, 1⟩

/-- No place in the text. -/
def nowhere : Position := ⟨0, 0⟩

/-- The position behind a character. -/
def next (p : Position) (c : Char) : Position :=
  if c = '\n' then ⟨p.line + 1, 1⟩ else ⟨p.line, p.column + 1⟩

/-- The position behind a run of characters. -/
def advance (p : Position) (text : List Char) : Position := text.foldl next p

@[simp] theorem advance_nil (p : Position) : p.advance [] = p := rfl

@[simp] theorem advance_cons (p : Position) (c : Char) (text : List Char) :
    p.advance (c :: text) = (p.next c).advance text := rfl

theorem advance_append (p : Position) (a b : List Char) :
    p.advance (a ++ b) = (p.advance a).advance b := by
  simp [advance]

/-- The order of reading. -/
def le (p q : Position) : Bool := p.line < q.line || (p.line == q.line && p.column ≤ q.column)

end Position

end AnnotatedShader
