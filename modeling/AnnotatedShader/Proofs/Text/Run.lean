import AnnotatedShader.Text.Blank
import AnnotatedShader.Text.Word
import Mathlib.Data.List.TakeWhile

set_option autoImplicit false

/-!
# Runs of characters

A run is a stretch of characters of one class.  Readers cut a text where a run ends, and trim it of
the runs of blanks at its ends.

A run is taken off the front by `takeWhile` and what is behind it by `dropWhile`.  The lemmas here
tell them for a text whose parts are known: a run that ends with its text, or in front of a
character of another class.  Then trimming is told by the characters at the ends, and a word is cut
out of a text at its blanks.  Blanks are told apart from word characters by their code points, which
are a short list (`mem_blankCodes`).
-/

namespace AnnotatedShader.Text

/-- What a run of a class and the text behind it are, when that text does not go on with the
class. -/
theorem takeWhile_append_of_head? {p : Char → Bool} {run behind : List Char}
    (hrun : ∀ x ∈ run, p x = true) (hbehind : behind.head?.any p = false) :
    (run ++ behind).takeWhile p = run ∧ (run ++ behind).dropWhile p = behind := by
  rw [List.takeWhile_append_of_pos hrun, List.dropWhile_append_of_pos hrun]
  cases behind with
  | nil => simp
  | cons x rest =>
    have hx : p x = false := by simpa using hbehind
    simp [hx]

theorem dropWhile_of_head? {p : Char → Bool} {text : List Char}
    (h : text.head?.any p = false) : text.dropWhile p = text :=
  (takeWhile_append_of_head? (by simp : ∀ x ∈ [], p x = true) h).2

/-- Behind a run the class ends. -/
theorem head?_any_dropWhile {α : Type} (p : α → Bool) (text : List α) :
    (text.dropWhile p).head?.any p = false := by
  cases h : (text.dropWhile p).head? with
  | none => rfl
  | some x => simpa [h] using List.head?_dropWhile_not p text

/-- The text behind another one ends with no character of a class when both together do not. -/
theorem any_getLast?_of_append {p : Char → Bool} {text behind : List Char}
    (h : (text ++ behind).getLast?.any p = false) : behind.getLast?.any p = false := by
  rw [List.getLast?_append] at h
  cases hbehind : behind.getLast? with
  | none => rfl
  | some x => simpa [hbehind] using h

/-- Behind a run is the text without it. -/
theorem drop_takeWhile {α : Type} (p : α → Bool) (text : List α) :
    text.drop (text.takeWhile p).length = text.dropWhile p := by
  have h : (text.takeWhile p ++ text.dropWhile p).drop (text.takeWhile p).length =
      text.dropWhile p := List.drop_left
  rwa [List.takeWhile_append_dropWhile] at h

end AnnotatedShader.Text

/-!
## Trimming

A text is its trimmed text between two runs of blanks.  The trimmed text is the only one that stands
so and is empty or starts and ends with characters that are not blank.
-/

namespace AnnotatedShader.Text

/-! ## Blanks and words -/

/-- The code points of the blanks. -/
def blankCodes : List Nat :=
  [9, 10, 11, 12, 13, 28, 29, 30, 31, 32, 0x85, 0xA0, 0x1680, 0x2000, 0x2001, 0x2002, 0x2003,
    0x2004, 0x2005, 0x2006, 0x2007, 0x2008, 0x2009, 0x200A, 0x2028, 0x2029, 0x202F, 0x205F, 0x3000]

theorem mem_blankCodes {c : Char} (h : isBlank c = true) : c.toNat ∈ blankCodes := by
  simp only [isBlank, Bool.or_eq_true, Bool.and_eq_true, decide_eq_true_eq, beq_iff_eq] at h
  generalize c.toNat = n at h ⊢
  -- one range or one code point at a time
  rcases h with (((((((((h | h) | h) | h) | h) | h) | h) | h) | h) | h) | h <;>
    first
    | subst h; decide
    | simp only [blankCodes, List.mem_cons, List.not_mem_nil, or_false]; omega

/-- No blank belongs to a word. -/
theorem isWordChar_eq_false_of_isBlank {c : Char} (h : isBlank c = true) :
    isWordChar c = false := by
  have hcodes : ∀ n ∈ blankCodes, isWordChar (Char.ofNat n) = false := by decide +kernel
  rw [← Char.ofNat_toNat c]
  exact hcodes c.toNat (mem_blankCodes h)

theorem isBlank_eq_false_of_isWordChar {c : Char} (h : isWordChar c = true) :
    isBlank c = false := by
  refine Bool.eq_false_iff.mpr fun hblank => ?_
  rw [isWordChar_eq_false_of_isBlank hblank] at h
  contradiction

theorem isBlank_eq_false_of_isNameChar {c : Char} (h : isNameChar c = true) : isBlank c = false :=
  isBlank_eq_false_of_isWordChar (isWordChar_of_isNameChar h)

/-! ## Solid texts -/

/-- The texts that start and end with characters that are not blank. -/
structure Solid (text : List Char) : Prop where
  first : ∃ x, text.head? = some x ∧ isBlank x = false
  last : ∃ x, text.getLast? = some x ∧ isBlank x = false

namespace Solid

variable {text front middle behind : List Char}

theorem ne_nil (h : Solid text) : text ≠ [] := by
  rintro rfl
  obtain ⟨x, hx, -⟩ := h.first
  contradiction

theorem reverse (h : Solid text) : Solid text.reverse :=
  ⟨by rw [List.head?_reverse]; exact h.last, by rw [List.getLast?_reverse]; exact h.first⟩

theorem append (hfront : Solid front) (hbehind : Solid behind) (middle : List Char) :
    Solid (front ++ (middle ++ behind)) := by
  obtain ⟨x, hx, hx'⟩ := hfront.first
  obtain ⟨y, hy, hy'⟩ := hbehind.last
  refine ⟨⟨x, ?_, hx'⟩, ⟨y, ?_, hy'⟩⟩
  · rw [List.head?_append, hx, Option.some_or]
  · rw [List.getLast?_append, List.getLast?_append, hy, Option.some_or, Option.some_or]

theorem singleton {x : Char} (h : isBlank x = false) : Solid [x] := ⟨⟨x, rfl, h⟩, ⟨x, rfl, h⟩⟩

/-- A text without blanks is solid. -/
theorem of_forall (hne : text ≠ []) (h : ∀ x ∈ text, isBlank x = false) : Solid text :=
  ⟨⟨_, List.head?_eq_some_head hne, h _ (List.head_mem hne)⟩,
    ⟨_, List.getLast?_eq_some_getLast hne, h _ (List.getLast_mem hne)⟩⟩

theorem trimStart_append (h : Solid text) (hfront : front.all isBlank = true) :
    trimStart (front ++ (text ++ behind)) = text ++ behind := by
  obtain ⟨x, hx, hblank⟩ := h.first
  rw [trimStart, List.dropWhile_append_of_pos (by simpa using hfront)]
  cases text with
  | nil => contradiction
  | cons y rest =>
    obtain rfl := Option.some.inj hx
    rw [List.cons_append, List.dropWhile_cons_of_neg (by simp [hblank])]

theorem trimEnd_append (h : Solid text) (hbehind : behind.all isBlank = true) :
    trimEnd (text ++ behind) = text := by
  have hblank : behind.reverse.all isBlank = true := by rwa [List.all_reverse]
  have hreverse : trimStart (behind.reverse ++ (text.reverse ++ [])) = text.reverse ++ [] :=
    h.reverse.trimStart_append hblank
  rw [List.append_nil, ← List.reverse_append, trimStart] at hreverse
  rw [trimEnd, hreverse, List.reverse_reverse]

/-- Trimming takes the blanks around a solid text away. -/
theorem trim_append (h : Solid text) (hfront : front.all isBlank = true)
    (hbehind : behind.all isBlank = true) : trim (front ++ (text ++ behind)) = text := by
  rw [trim, h.trimStart_append hfront, h.trimEnd_append hbehind]

end Solid

/-- Of blanks alone nothing is left. -/
theorem trim_eq_nil {text : List Char} (h : text.all isBlank = true) : trim text = [] := by
  rw [trim, trimStart, List.dropWhile_eq_nil_iff.mpr (by simpa using h)]
  rfl

/-- In front of the first character that is not blank are blanks only. -/
theorem exists_front {text : List Char} (h : text.all isBlank = false) :
    ∃ front rest, text = front ++ rest ∧ front.all isBlank = true ∧
      ∃ x, rest.head? = some x ∧ isBlank x = false := by
  have hne : text.dropWhile isBlank ≠ [] := by
    rw [Ne, List.dropWhile_eq_nil_iff]
    simpa using h
  refine ⟨text.takeWhile isBlank, text.dropWhile isBlank, List.takeWhile_append_dropWhile.symm,
    List.all_takeWhile, _, List.head?_eq_some_head hne, List.head_dropWhile_not isBlank hne⟩

/-- A text that is not blank is a solid text between blanks. -/
theorem exists_solid {text : List Char} (h : text.all isBlank = false) :
    ∃ front middle behind, text = front ++ (middle ++ behind) ∧ front.all isBlank = true ∧
      Solid middle ∧ behind.all isBlank = true := by
  obtain ⟨front, rest, rfl, hfront, x, hx, hblank⟩ := exists_front h
  have hrest : rest.reverse.all isBlank = false := by
    rw [List.all_reverse, List.all_eq_false]
    exact ⟨x, List.mem_of_head? hx, by simp [hblank]⟩
  obtain ⟨behind, middle, hreverse, hbehind, y, hy, hy'⟩ := exists_front hrest
  have hsplit : rest = middle.reverse ++ behind.reverse := by
    rw [← List.reverse_append, ← hreverse, List.reverse_reverse]
  have hmiddle : middle.reverse ≠ [] := by
    rintro hnil
    rw [List.reverse_eq_nil_iff.mp hnil] at hy
    contradiction
  refine ⟨front, middle.reverse, behind.reverse, by rw [hsplit],
    hfront, ⟨⟨x, ?_, hblank⟩, y, ?_, hy'⟩, by rwa [List.all_reverse]⟩
  · rw [hsplit, List.head?_append, List.head?_eq_some_head hmiddle, Option.some_or] at hx
    rw [List.head?_eq_some_head hmiddle, hx]
  · rwa [List.getLast?_reverse]

end AnnotatedShader.Text
