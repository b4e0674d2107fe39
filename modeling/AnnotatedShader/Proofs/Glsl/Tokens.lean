import AnnotatedShader.Proofs.Text.Run

set_option autoImplicit false

/-!
# The tokens of a body

A body consists of words, which are its identifiers and numbers, and of other characters, with
blanks between them.  A number with a point in it is three tokens.  Each token is kept with whether
a blank is in front of it (`Spaced`), and `tokens` forgets that.

No word reaches across a character that belongs to none, so there the tokens of a text are those of
its parts (`WordsApart`, `tokens_append`).  Proofs about tokens go by `spacing_induction`, with one
case for a blank, one for a mark and one for a word, and by one equation for each of these; the
scanner itself is not opened again.
-/

namespace AnnotatedShader.Glsl

open AnnotatedShader.Text

/-! ## Tokens -/

/-- A token with the blanks in front of it. -/
structure Spaced where
  gap : List Char
  token : List Char
  deriving DecidableEq, Repr, Inhabited

/-- The tokens of a text: words as far as they reach, and all other characters that are not blank
one by one.  The first has a gap in front of it already. -/
def spacedFrom : (gap : List Char) → List Char → List Spaced
  | _, [] => []
  | gap, c :: rest =>
    if isBlank c then spacedFrom (gap ++ [c]) rest
    else if isWordChar c then
      ⟨gap, c :: rest.takeWhile isWordChar⟩ :: spacedFrom [] (rest.dropWhile isWordChar)
    else ⟨gap, [c]⟩ :: spacedFrom [] rest
termination_by _ text => text.length
decreasing_by
  · exact Nat.lt_succ_self _
  · exact Nat.lt_succ_of_le (List.dropWhile_suffix isWordChar).length_le
  · exact Nat.lt_succ_self _

/-- The tokens of a text, without its layout. -/
def tokens (text : List Char) : List (List Char) := (spacedFrom [] text).map Spaced.token

/-- An identifier or a number. -/
structure IsWord (word : List Char) : Prop where
  ne_nil : word ≠ []
  chars : ∀ c ∈ word, isWordChar c = true

/-- How a text begins. -/
inductive Begins : List Char → Prop
  | nil : Begins []
  | blank {c : Char} {rest : List Char} (hc : isBlank c = true) : Begins (c :: rest)
  | word {word rest : List Char} (hword : IsWord word)
    (hrest : rest.head?.any isWordChar = false) : Begins (word ++ rest)
  | mark {c : Char} {rest : List Char} (hblank : isBlank c = false) (hword : isWordChar c = false) :
    Begins (c :: rest)

theorem begins (text : List Char) : Begins text := by
  cases text with
  | nil => exact .nil
  | cons c rest =>
    cases hblank : isBlank c with
    | true => exact .blank hblank
    | false =>
      cases hword : isWordChar c with
      | false => exact .mark hblank hword
      | true =>
        have hsplit :
            c :: rest = (c :: rest.takeWhile isWordChar) ++ rest.dropWhile isWordChar := by
          rw [List.cons_append, List.takeWhile_append_dropWhile]
        rw [hsplit]
        exact .word ⟨List.cons_ne_nil _ _, List.forall_mem_cons.mpr
          ⟨hword, fun d hd => List.mem_takeWhile_imp hd⟩⟩ (head?_any_dropWhile isWordChar rest)

namespace IsWord

variable {word : List Char}

theorem any_getLast? (h : IsWord word) : word.getLast?.any isWordChar = true := by
  rw [List.getLast?_eq_some_getLast h.ne_nil]
  exact h.chars _ (List.getLast_mem h.ne_nil)

theorem any_head? (h : IsWord word) : word.head?.any isWordChar = true := by
  rw [List.head?_eq_some_head h.ne_nil]
  exact h.chars _ (List.head_mem h.ne_nil)

theorem length_pos (h : IsWord word) : 0 < word.length := List.length_pos_iff.mpr h.ne_nil

/-- No other character is a word. -/
theorem ne_mark (h : IsWord word) {c : Char} (hc : isWordChar c = false) : word ≠ [c] := by
  rintro rfl
  have hword := h.chars c List.mem_cons_self
  rw [hc] at hword
  contradiction

end IsWord

section Spacing

variable (gap : List Char)

@[simp] theorem spacedFrom_nil : spacedFrom gap [] = [] := by rw [spacedFrom.eq_def]

theorem spacedFrom_cons (c : Char) (rest : List Char) :
    spacedFrom gap (c :: rest) =
      if isBlank c then spacedFrom (gap ++ [c]) rest
      else if isWordChar c then
        ⟨gap, c :: rest.takeWhile isWordChar⟩ :: spacedFrom [] (rest.dropWhile isWordChar)
      else ⟨gap, [c]⟩ :: spacedFrom [] rest := by
  rw [spacedFrom.eq_def]

theorem spacedFrom_blank {c : Char} (h : isBlank c = true) (rest : List Char) :
    spacedFrom gap (c :: rest) = spacedFrom (gap ++ [c]) rest := by
  rw [spacedFrom_cons, if_pos h]

theorem spacedFrom_mark {c : Char} (hblank : isBlank c = false) (hword : isWordChar c = false)
    (rest : List Char) : spacedFrom gap (c :: rest) = ⟨gap, [c]⟩ :: spacedFrom [] rest := by
  rw [spacedFrom_cons, hblank, if_neg Bool.false_ne_true, hword, if_neg Bool.false_ne_true]

theorem spacedFrom_word {word rest : List Char} (hword : IsWord word)
    (hrest : rest.head?.any isWordChar = false) :
    spacedFrom gap (word ++ rest) = ⟨gap, word⟩ :: spacedFrom [] rest := by
  obtain ⟨hne, hall⟩ := hword
  cases word with
  | nil => contradiction
  | cons c word =>
    have hc := hall c List.mem_cons_self
    obtain ⟨htake, hdrop⟩ :=
      takeWhile_append_of_head? (fun d hd => hall d (List.mem_cons_of_mem c hd)) hrest
    rw [List.cons_append, spacedFrom_cons, isBlank_eq_false_of_isWordChar hc,
      if_neg Bool.false_ne_true, if_pos hc, htake, hdrop]

end Spacing

/-- Induction along the tokens of a text. -/
@[elab_as_elim]
theorem spacing_induction {P : List Char → List Char → Prop} (nil : ∀ gap, P gap [])
    (blank : ∀ gap c rest, isBlank c = true → P (gap ++ [c]) rest → P gap (c :: rest))
    (word : ∀ gap word rest, IsWord word → rest.head?.any isWordChar = false → P [] rest →
      P gap (word ++ rest))
    (mark : ∀ gap c rest, isBlank c = false → isWordChar c = false → P [] rest → P gap (c :: rest))
    (gap text : List Char) : P gap text := by
  induction hlength : text.length using Nat.strong_induction_on generalizing gap text with
  | h n ih =>
    subst hlength
    cases begins text with
    | nil => exact nil gap
    | blank hc => exact blank gap _ _ hc (ih _ (Nat.lt_succ_self _) _ _ rfl)
    | mark hblank hword => exact mark gap _ _ hblank hword (ih _ (Nat.lt_succ_self _) _ _ rfl)
    | @word found rest hfound hrest =>
      refine word gap found rest hfound hrest (ih _ ?_ _ _ rfl)
      have hpos := hfound.length_pos
      rw [List.length_append]
      omega

/-! ## Tokens of texts behind each other -/

/-- No word reaches from one text into the next. -/
def WordsApart (left right : List Char) : Prop :=
  left.getLast?.any isWordChar = false ∨ right.head?.any isWordChar = false

theorem WordsApart.of_append {left middle right : List Char}
    (h : WordsApart (left ++ middle) right) : WordsApart middle right :=
  h.imp_left any_getLast?_of_append

theorem wordsApart_of_blank_left {left : List Char} (h : left.all isBlank = true)
    (right : List Char) : WordsApart left right := by
  refine .inl ?_
  cases hlast : left.getLast? with
  | none => rfl
  | some c =>
    exact isWordChar_eq_false_of_isBlank (List.all_eq_true.mp h c (List.mem_of_getLast? hlast))

theorem wordsApart_of_blank_right {right : List Char} (h : right.all isBlank = true)
    (left : List Char) : WordsApart left right := by
  refine .inr ?_
  cases hhead : right.head? with
  | none => rfl
  | some c =>
    exact isWordChar_eq_false_of_isBlank (List.all_eq_true.mp h c (List.mem_of_head? hhead))

/-- The blanks that a text ends with, behind a gap. -/
def gapBehind (gap : List Char) : List Char → List Char
  | [] => gap
  | c :: rest => gapBehind (if isBlank c then gap ++ [c] else []) rest

theorem gapBehind_cons (gap : List Char) (c : Char) (rest : List Char) :
    gapBehind gap (c :: rest) = gapBehind (if isBlank c then gap ++ [c] else []) rest := by
  rw [gapBehind.eq_def]

theorem gapBehind_word {word : List Char} (h : IsWord word) (gap rest : List Char) :
    gapBehind gap (word ++ rest) = gapBehind [] rest := by
  obtain ⟨hne, hall⟩ := h
  induction word generalizing gap with
  | nil => contradiction
  | cons c word ih =>
    have hblank := isBlank_eq_false_of_isWordChar (hall c List.mem_cons_self)
    rw [List.cons_append, gapBehind_cons, hblank, if_neg Bool.false_ne_true]
    cases word with
    | nil => rfl
    | cons d word =>
      exact ih _ (List.cons_ne_nil d word) fun x hx => hall x (List.mem_cons_of_mem c hx)

theorem spacedFrom_append {left right : List Char} (h : WordsApart left right) (gap : List Char) :
    spacedFrom gap (left ++ right) =
      spacedFrom gap left ++ spacedFrom (gapBehind gap left) right := by
  induction gap, left using spacing_induction with
  | nil gap => rw [List.nil_append, spacedFrom_nil, List.nil_append]; rfl
  | blank gap c rest hc ih =>
    rw [List.cons_append, spacedFrom_blank gap hc, spacedFrom_blank gap hc,
      ih (@WordsApart.of_append [c] _ _ h), gapBehind_cons, if_pos hc]
  | mark gap c rest hblank hword ih =>
    rw [List.cons_append, spacedFrom_mark gap hblank hword, spacedFrom_mark gap hblank hword,
      ih (@WordsApart.of_append [c] _ _ h), gapBehind_cons, hblank, if_neg Bool.false_ne_true,
      List.cons_append]
  | word gap word rest hword hrest ih =>
    have hhead : (rest ++ right).head?.any isWordChar = false := by
      cases rest with
      | nil =>
        refine h.resolve_left fun hlast => ?_
        rw [List.append_nil, hword.any_getLast?] at hlast
        contradiction
      | cons c rest => exact hrest
    rw [List.append_assoc, spacedFrom_word gap hword hhead, spacedFrom_word gap hword hrest,
      ih h.of_append, gapBehind_word hword, List.cons_append]

/-- What is in front of the first token is not part of it. -/
theorem map_token_spacedFrom (gap text : List Char) :
    (spacedFrom gap text).map Spaced.token = tokens text := by
  have hany : ∀ gap',
      (spacedFrom gap text).map Spaced.token = (spacedFrom gap' text).map Spaced.token := by
    induction gap, text using spacing_induction with
    | nil gap => simp
    | blank gap c rest hc ih =>
      intro gap'
      rw [spacedFrom_blank gap hc, spacedFrom_blank gap' hc, ih]
    | mark gap c rest hblank hword ih =>
      intro gap'
      rw [spacedFrom_mark gap hblank hword, spacedFrom_mark gap' hblank hword, List.map_cons,
        List.map_cons]
    | word gap word rest hword hrest ih =>
      intro gap'
      rw [spacedFrom_word gap hword hrest, spacedFrom_word gap' hword hrest, List.map_cons,
        List.map_cons]
  exact hany []

theorem tokens_append {left right : List Char} (h : WordsApart left right) :
    tokens (left ++ right) = tokens left ++ tokens right := by
  rw [tokens, spacedFrom_append h, List.map_append, map_token_spacedFrom, map_token_spacedFrom]

@[simp] theorem tokens_nil : tokens [] = [] := by rw [tokens, spacedFrom_nil, List.map_nil]

theorem tokens_mark {c : Char} (hblank : isBlank c = false) (hword : isWordChar c = false)
    (rest : List Char) : tokens (c :: rest) = [c] :: tokens rest := by
  rw [tokens, spacedFrom_mark [] hblank hword, List.map_cons, map_token_spacedFrom]

theorem tokens_word {word : List Char} (h : IsWord word) : tokens word = [word] := by
  have hspaced := @spacedFrom_word [] word [] h rfl
  rw [List.append_nil, spacedFrom_nil] at hspaced
  rw [tokens, hspaced, List.map_cons, List.map_nil]

theorem tokens_blank {text : List Char} (h : text.all isBlank = true) : tokens text = [] := by
  suffices hgap : ∀ gap, spacedFrom gap text = [] by rw [tokens, hgap, List.map_nil]
  induction text with
  | nil => exact spacedFrom_nil
  | cons c rest ih =>
    intro gap
    rw [List.all_cons, Bool.and_eq_true] at h
    rw [spacedFrom_blank gap h.1, ih h.2]

theorem tokens_ne_nil {text : List Char} (h : text.all isBlank = false) : tokens text ≠ [] := by
  suffices hgap : ∀ gap, spacedFrom gap text ≠ [] by
    rw [tokens, Ne, List.map_eq_nil_iff]
    exact hgap []
  intro gap
  induction gap, text using spacing_induction with
  | nil gap => contradiction
  | blank gap c rest hc ih =>
    rw [spacedFrom_blank gap hc]
    exact ih (by rwa [List.all_cons, hc, Bool.true_and] at h)
  | mark gap c rest hblank hword _ =>
    rw [spacedFrom_mark gap hblank hword]
    exact List.cons_ne_nil _ _
  | word gap word rest hword hrest _ =>
    rw [spacedFrom_word gap hword hrest]
    exact List.cons_ne_nil _ _

/-- Trimming takes no token away, and all blanks if there are no tokens. -/
theorem tokens_trim (text : List Char) :
    tokens (trim text) = tokens text ∧ ((trim text).isEmpty = (tokens text).isEmpty) := by
  cases hblank : text.all isBlank with
  | true => rw [trim_eq_nil hblank, tokens_blank hblank, tokens_nil]; exact ⟨rfl, rfl⟩
  | false =>
    obtain ⟨front, middle, behind, rfl, hfront, hmiddle, hbehind⟩ := exists_solid hblank
    have hne := tokens_ne_nil hblank
    rw [hmiddle.trim_append hfront hbehind]
    refine ⟨?_, ?_⟩
    · rw [tokens_append (wordsApart_of_blank_left hfront _),
        tokens_append (wordsApart_of_blank_right hbehind _), tokens_blank hfront,
        tokens_blank hbehind, List.nil_append, List.append_nil]
    · rw [List.isEmpty_eq_false_iff.mpr hmiddle.ne_nil, List.isEmpty_eq_false_iff.mpr hne]

end AnnotatedShader.Glsl
