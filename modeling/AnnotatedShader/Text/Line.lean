set_option autoImplicit false

/-!
# Lines

A text is a sequence of lines.  A line ends at a line break of any convention, the pair CR LF counts
as one break, and no empty line follows the last break.

`splitLines` is structural on the text; no line that it gives has a line break in it
(`not_isLineBreak_of_mem_splitLines`).  Lines are joined with line feeds, whatever separated them.
-/

namespace AnnotatedShader.Text

/-- The characters that end a line: LF, VT, FF, CR, the information separators FS, GS and RS, NEL,
and the Unicode line and paragraph separators. -/
def isLineBreak (c : Char) : Bool :=
  let code := c.toNat
  (10 ≤ code && code ≤ 13) || (28 ≤ code && code ≤ 30) || code == 0x85 ||
    code == 0x2028 || code == 0x2029

/-- Puts a character in front of the first line. -/
def consToFirst (c : Char) : List (List Char) → List (List Char)
  | [] => [[c]]
  | line :: rest => (c :: line) :: rest

/-- The lines of a text, without their breaks. -/
def splitLines : List Char → List (List Char)
  | [] => []
  | '\r' :: '\n' :: rest => [] :: splitLines rest
  | c :: rest => if isLineBreak c then [] :: splitLines rest else consToFirst c (splitLines rest)

/-- The lines of a text. -/
def lines (text : String) : List String := (splitLines text.toList).map String.ofList

/-- Puts lines below each other, with a line feed between two of them. -/
def joinLines (ls : List String) : String := "\n".intercalate ls

/-- No line holds a line break. -/
theorem not_isLineBreak_of_mem_splitLines {text line : List Char} (h : line ∈ splitLines text)
    {c : Char} (hc : c ∈ line) : isLineBreak c = false := by
  fun_induction splitLines text generalizing line with
  | case1 => simp at h
  | case2 rest ih =>
    rcases List.mem_cons.1 h with rfl | h
    · simp at hc
    · exact ih h hc
  | case3 d rest _ hd ih =>
    rcases List.mem_cons.1 h with rfl | h
    · simp at hc
    · exact ih h hc
  | case4 d rest _ hd ih =>
    have hd : isLineBreak d = false := by simpa using hd
    cases hs : splitLines rest with
    | nil =>
      rw [hs] at h
      simp only [consToFirst, List.mem_singleton] at h
      subst h
      simp only [List.mem_singleton] at hc
      exact hc ▸ hd
    | cons first others =>
      rw [hs] at h ih
      rcases List.mem_cons.1 h with rfl | h
      · rcases List.mem_cons.1 hc with rfl | hc
        · exact hd
        · exact ih (List.mem_cons_self ..) hc
      · exact ih (List.mem_cons_of_mem _ h) hc

end AnnotatedShader.Text
