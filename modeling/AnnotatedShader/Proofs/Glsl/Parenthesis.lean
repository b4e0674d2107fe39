import AnnotatedShader.Glsl.Rewrite

set_option autoImplicit false

/-!
# Matching parentheses

The arguments of a call end in front of the parenthesis that closes its own one.  `Closing depth`
describes the texts that close `depth` open parentheses and all that they open themselves, with no
search in it; `Balanced` texts close what they open.

The search for the closing parenthesis finds exactly the end of such a text
(`closeParen?_eq_some_iff`).  A text has one end of this kind at most, and what is inside of it
closes its own parentheses, so calls can be compared by where they end.  Parentheses are counted as
characters, whether they stand in a comment of the body or not, as the search does.
-/

namespace AnnotatedShader.Glsl

/-! ## The search -/

@[simp] theorem closeParen?_nil (depth : Nat) : closeParen? depth [] = none := by
  cases depth <;> rfl

@[simp] theorem closeParen?_closing_zero (rest : List Char) :
    closeParen? 0 (')' :: rest) = some ([], rest) := rfl

@[simp] theorem closeParen?_closing_succ (depth : Nat) (rest : List Char) :
    closeParen? (depth + 1) (')' :: rest) =
      (closeParen? depth rest).map fun (inner, behind) => (')' :: inner, behind) := rfl

theorem closeParen?_char {c : Char} (h : c ≠ ')') (depth : Nat) (rest : List Char) :
    closeParen? depth (c :: rest) =
      (closeParen? (if c = '(' then depth + 1 else depth) rest).map fun (inner, behind) =>
        (c :: inner, behind) := by
  cases depth <;> simp [closeParen?, h]

@[simp] theorem closeParen?_opening (depth : Nat) (rest : List Char) :
    closeParen? depth ('(' :: rest) =
      (closeParen? (depth + 1) rest).map fun (inner, behind) => ('(' :: inner, behind) :=
  closeParen?_char (by decide) depth rest

/-! ## What it finds -/

/-- The texts behind `depth` open parentheses that close these and all that they open, and no
others. -/
inductive Closing : (depth : Nat) → List Char → Prop
  | nil : Closing 0 []
  | opening {depth : Nat} {text : List Char} (h : Closing (depth + 1) text) :
    Closing depth ('(' :: text)
  | closing {depth : Nat} {text : List Char} (h : Closing depth text) :
    Closing (depth + 1) (')' :: text)
  | char {depth : Nat} {c : Char} {text : List Char} (hopening : c ≠ '(') (hclosing : c ≠ ')')
    (h : Closing depth text) : Closing depth (c :: text)

/-- The texts in which every parenthesis has its counterpart. -/
abbrev Balanced (text : List Char) : Prop := Closing 0 text

theorem closeParen?_of_closing {depth : Nat} {inner : List Char} (h : Closing depth inner)
    (behind : List Char) : closeParen? depth (inner ++ ')' :: behind) = some (inner, behind) := by
  induction h with
  | nil => exact closeParen?_closing_zero behind
  | opening h ih => rw [List.cons_append, closeParen?_opening, ih, Option.map_some]
  | closing h ih => rw [List.cons_append, closeParen?_closing_succ, ih, Option.map_some]
  | char hopening hclosing h ih =>
    rw [List.cons_append, closeParen?_char hclosing, if_neg hopening, ih, Option.map_some]

theorem closing_of_closeParen? {depth : Nat} {text inner behind : List Char}
    (h : closeParen? depth text = some (inner, behind)) :
    Closing depth inner ∧ text = inner ++ ')' :: behind := by
  induction text generalizing depth inner with
  | nil => exact absurd h (by simp)
  | cons c rest ih =>
    -- What a step that goes on adds in front.
    have hstep {depth' : Nat} (hrest : (closeParen? depth' rest).map
        (fun (inner, behind) => (c :: inner, behind)) = some (inner, behind)) :
        ∃ inner', inner = c :: inner' ∧ Closing depth' inner' ∧ rest = inner' ++ ')' :: behind := by
      obtain ⟨⟨inner', behind'⟩, hclose, hsome⟩ := Option.map_eq_some_iff.mp hrest
      obtain ⟨rfl, rfl⟩ := Prod.mk.inj hsome
      exact ⟨inner', rfl, ih hclose⟩
    by_cases hclosing : c = ')'
    · subst hclosing
      cases depth with
      | zero =>
        obtain ⟨rfl, rfl⟩ : [] = inner ∧ rest = behind := by simpa using h
        exact ⟨.nil, rfl⟩
      | succ depth =>
        obtain ⟨inner, rfl, hinner, rfl⟩ := hstep (closeParen?_closing_succ depth rest ▸ h)
        exact ⟨.closing hinner, rfl⟩
    · rw [closeParen?_char hclosing] at h
      obtain ⟨inner, rfl, hinner, rfl⟩ := hstep h
      by_cases hopening : c = '('
      · rw [if_pos hopening] at hinner
        exact ⟨hopening ▸ .opening hinner, rfl⟩
      · rw [if_neg hopening] at hinner
        exact ⟨.char hopening hclosing hinner, rfl⟩

/-- The search for the closing parenthesis ends at the first one that is not matched before. -/
theorem closeParen?_eq_some_iff {depth : Nat} {text inner behind : List Char} :
    closeParen? depth text = some (inner, behind) ↔
      Closing depth inner ∧ text = inner ++ ')' :: behind := by
  refine ⟨closing_of_closeParen?, ?_⟩
  rintro ⟨hinner, rfl⟩
  exact closeParen?_of_closing hinner behind

namespace Closing

variable {depth : Nat} {inner inner' behind behind' : List Char}

/-- Only one closing parenthesis matches. -/
theorem unique (h : Closing depth inner) (h' : Closing depth inner')
    (heq : inner ++ ')' :: behind = inner' ++ ')' :: behind') :
    inner = inner' ∧ behind = behind' := by
  have hclose := closeParen?_of_closing h behind
  rw [heq, closeParen?_of_closing h' behind'] at hclose
  obtain ⟨hinner, hbehind⟩ := Prod.mk.inj (Option.some.inj hclose)
  exact ⟨hinner.symm, hbehind.symm⟩

/-- A text that closes parentheses of two levels closes the inner ones first. -/
theorem split {outer : Nat} {text : List Char} (h : Closing (depth + (outer + 1)) text) :
    ∃ inner behind, text = inner ++ ')' :: behind ∧ Closing depth inner ∧ Closing outer behind := by
  generalize htotal : depth + (outer + 1) = total at h
  induction h generalizing depth with
  | nil => omega
  | @opening total text h ih =>
    have hdepth : depth + 1 + (outer + 1) = total + 1 := by omega
    obtain ⟨inner, behind, rfl, hinner, hbehind⟩ := ih hdepth
    exact ⟨'(' :: inner, behind, rfl, .opening hinner, hbehind⟩
  | @closing total text h ih =>
    cases depth with
    | zero =>
      obtain rfl : outer = total := by omega
      exact ⟨[], text, rfl, .nil, h⟩
    | succ depth =>
      have hdepth : depth + (outer + 1) = total := by omega
      obtain ⟨inner, behind, rfl, hinner, hbehind⟩ := ih hdepth
      exact ⟨')' :: inner, behind, rfl, .closing hinner, hbehind⟩
  | @char total c text hopening hclosing h ih =>
    obtain ⟨inner, behind, rfl, hinner, hbehind⟩ := ih htotal
    exact ⟨c :: inner, behind, rfl, .char hopening hclosing hinner, hbehind⟩

/-- What is opened in a text that closes what it opens is closed in it. -/
theorem inside {front text : List Char} (h : Closing depth (front ++ '(' :: text)) :
    ∃ inner behind, text = inner ++ ')' :: behind ∧ Balanced inner := by
  induction front generalizing depth with
  | nil =>
    cases h with
    | opening h =>
      rw [← Nat.zero_add (depth + 1)] at h
      obtain ⟨inner, behind, htext, hinner, -⟩ := h.split
      exact ⟨inner, behind, htext, hinner⟩
    | char hopening => exact absurd rfl hopening
  | cons c front ih =>
    cases h with
    | opening h => exact ih h
    | closing h => exact ih h
    | char _ _ h => exact ih h

end Closing

end AnnotatedShader.Glsl
