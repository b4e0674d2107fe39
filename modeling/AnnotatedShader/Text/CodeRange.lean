set_option autoImplicit false

/-!
# Ranges of code points

A property of characters that a standard lists, rather than computes, is kept as a table of closed
ranges of code points.  Membership is a linear search, and `inRanges_iff` says what it decides.
-/

namespace AnnotatedShader.Text

/-- Closed ranges of code points, each written as its first and its last member. -/
abbrev CodeRanges := List (Nat × Nat)

/-- Whether a character lies in one of the ranges. -/
def inRanges (table : CodeRanges) (c : Char) : Bool :=
  table.any fun range => range.1 ≤ c.toNat && c.toNat ≤ range.2

theorem inRanges_iff (table : CodeRanges) (c : Char) :
    inRanges table c = true ↔ ∃ range ∈ table, range.1 ≤ c.toNat ∧ c.toNat ≤ range.2 := by
  simp [inRanges]

end AnnotatedShader.Text
