import AnnotatedShader.Glsl.Rewrite
import AnnotatedShader.Proofs.Text.Run

set_option autoImplicit false

/-!
# Lexemes of a body

A body is read as identifiers and the characters between them.  An identifier is as long as it can
be and starts where no word character is in front of it.  `occurrences` gives the lexemes of a body
with the text in front of each and the text behind it, so that a lexeme is told together with its
place; `Lexed` says which lists of lexemes are read back from their text.

Proofs about bodies go by `reading_induction`: nothing is left, an identifier stands in front, or a
character that starts none.  A text that is put together of others is read as these are, if no
identifier reaches across the place where they meet (`Severed`, `occurrences_append`,
`Lexed.append`).  This is what lets a rewritten body be told lexeme by lexeme, although an
identifier in it may come from one that was longer or shorter.
-/

namespace AnnotatedShader.Glsl

open AnnotatedShader.Text

/-! ## Identifiers -/

/-- The texts of identifiers. -/
inductive IsIdentifier : List Char → Prop
  | cons {c : Char} {rest : List Char} (hstart : isNameStart c = true)
    (hrest : ∀ x ∈ rest, isNameChar x = true) : IsIdentifier (c :: rest)

namespace IsIdentifier

theorem of_all {c : Char} {rest : List Char} (hstart : isNameStart c = true)
    (hrest : rest.all isNameChar = true) : IsIdentifier (c :: rest) :=
  .cons hstart (List.all_eq_true.mp hrest)

variable {ident : List Char}

theorem of_head? (hstart : ident.head?.any isNameStart = true)
    (h : ∀ x ∈ ident, isNameChar x = true) : IsIdentifier ident := by
  cases ident with
  | nil => contradiction
  | cons c rest => exact .cons hstart fun x hx => h x (List.mem_cons_of_mem _ hx)

theorem ne_nil (h : IsIdentifier ident) : ident ≠ [] := by
  cases h
  simp

theorem isNameChar (h : IsIdentifier ident) {x : Char} (hx : x ∈ ident) : isNameChar x = true := by
  cases h with
  | cons hstart hrest =>
    rcases List.mem_cons.mp hx with rfl | hx
    · exact isNameChar_of_isNameStart hstart
    · exact hrest x hx

theorem getLast?_any (h : IsIdentifier ident) :
    ident.getLast?.any AnnotatedShader.Text.isNameChar = true := by
  rw [List.getLast?_eq_some_getLast h.ne_nil, Option.any_some]
  exact h.isNameChar (List.getLast_mem h.ne_nil)

/-- Behind an identifier no other one can start at once. -/
theorem any_getLast? (h : IsIdentifier ident) : ident.getLast?.any isWordChar = true := by
  obtain ⟨c, hlast, hc⟩ := (Option.any_eq_true _ _).mp h.getLast?_any
  exact (Option.any_eq_true _ _).mpr ⟨c, hlast, isWordChar_of_isNameChar hc⟩

/-- An identifier hides what stands in front of it. -/
theorem getLast?_append (h : IsIdentifier ident) (front : List Char) :
    (front ++ ident).getLast? = ident.getLast? := by
  rw [List.getLast?_append, List.getLast?_eq_some_getLast h.ne_nil, Option.some_or]

end IsIdentifier

/-- Whether an identifier starts with a character, given the character in front. -/
def startsName (before : Option Char) (c : Char) : Bool := isNameStart c && !before.any isWordChar

theorem startsName_iff {before : Option Char} {c : Char} :
    startsName before c = true ↔ isNameStart c = true ∧ before.any isWordChar = false := by
  simp [startsName]

theorem startsName_eq_false_of_not_isNameChar {c : Char} (h : isNameChar c = false)
    (before : Option Char) : startsName before c = false := by
  rw [startsName, Bool.and_eq_false_iff]
  refine .inl (Bool.eq_false_iff.mpr fun hstart => ?_)
  simp [isNameChar_of_isNameStart hstart] at h

/-! ## Lexemes -/

/-- A piece of a body: an identifier, or a character that belongs to none. -/
inductive Lexeme where
  | name (ident : String)
  | char (c : Char)
  deriving DecidableEq, Repr, Inhabited

/-- How a lexeme is written. -/
def Lexeme.text : Lexeme → List Char
  | .name ident => ident.toList
  | .char c => [c]

/-- The text that lexemes make up. -/
def spell (ls : List Lexeme) : List Char := ls.flatMap Lexeme.text

@[simp] theorem spell_nil : spell [] = [] := rfl

@[simp] theorem spell_cons (l : Lexeme) (ls : List Lexeme) :
    spell (l :: ls) = l.text ++ spell ls := List.flatMap_cons

@[simp] theorem spell_append (ls ms : List Lexeme) : spell (ls ++ ms) = spell ls ++ spell ms :=
  List.flatMap_append

@[simp] theorem Lexeme.text_name (ident : String) : (Lexeme.name ident).text = ident.toList := rfl

@[simp] theorem Lexeme.text_char (c : Char) : (Lexeme.char c).text = [c] := rfl

/-- A lexeme in its place in a body. -/
structure Occurrence where
  front : List Char
  lexeme : Lexeme
  behind : List Char
  deriving DecidableEq, Repr, Inhabited

/-- The lexemes of a text that stands behind another one, each in its place. -/
def occurrences : (front : List Char) → List Char → List Occurrence
  | _, [] => []
  | front, c :: rest =>
    if startsName front.getLast? c then
      ⟨front, .name (String.ofList (c :: rest.takeWhile isNameChar)), rest.dropWhile isNameChar⟩ ::
        occurrences (front ++ c :: rest.takeWhile isNameChar) (rest.dropWhile isNameChar)
    else ⟨front, .char c, rest⟩ :: occurrences (front ++ [c]) rest
termination_by _ text => text.length
decreasing_by
  · exact Nat.lt_succ_of_le (List.dropWhile_suffix isNameChar).length_le
  · exact Nat.lt_succ_self _

/-- The lexemes of a body. -/
def lexemes (text : List Char) : List Lexeme := (occurrences [] text).map Occurrence.lexeme

@[simp] theorem occurrences_nil (front : List Char) : occurrences front [] = [] := by
  rw [occurrences]

theorem occurrences_char {front : List Char} {c : Char} {rest : List Char}
    (h : startsName front.getLast? c = false) :
    occurrences front (c :: rest) = ⟨front, .char c, rest⟩ :: occurrences (front ++ [c]) rest := by
  rw [occurrences, h]
  rfl

theorem occurrences_name {front ident behind : List Char} (hident : IsIdentifier ident)
    (hfront : front.getLast?.any isWordChar = false)
    (hbehind : behind.head?.any isNameChar = false) :
    occurrences front (ident ++ behind) =
      ⟨front, .name (String.ofList ident), behind⟩ :: occurrences (front ++ ident) behind := by
  cases hident with
  | @cons c rest hstart hrest =>
    obtain ⟨htake, hdrop⟩ := takeWhile_append_of_head? hrest hbehind
    rw [List.cons_append, occurrences, if_pos (startsName_iff.mpr ⟨hstart, hfront⟩), htake, hdrop]

/-- A text is empty, or starts with an identifier or with a character that belongs to none. -/
@[elab_as_elim]
theorem reading_induction {P : List Char → List Char → Prop} (nil : ∀ front, P front [])
    (name : ∀ front ident behind, IsIdentifier ident → front.getLast?.any isWordChar = false →
      behind.head?.any isNameChar = false → P (front ++ ident) behind → P front (ident ++ behind))
    (char : ∀ front c rest, startsName front.getLast? c = false → P (front ++ [c]) rest →
      P front (c :: rest)) (front text : List Char) : P front text := by
  fun_induction occurrences front text with
  | case1 front => exact nil front
  | case2 front c rest hstart ih =>
    obtain ⟨hc, hfront⟩ := startsName_iff.mp hstart
    have hsplit : c :: rest = (c :: rest.takeWhile isNameChar) ++ rest.dropWhile isNameChar := by
      rw [List.cons_append, List.takeWhile_append_dropWhile]
    rw [hsplit]
    refine name front _ _ (.cons hc fun x hx => List.mem_takeWhile_imp hx) hfront ?_ ih
    have hhead := List.head?_dropWhile_not isNameChar rest
    cases hrest : (rest.dropWhile isNameChar).head? with
    | none => rfl
    | some x => simpa [hrest] using hhead
  | case3 front c rest hstart ih => exact char front c rest (by simpa using hstart) ih

/-- No identifier reaches from one text into the next. -/
def Severed (left right : List Char) : Prop :=
  left.getLast?.any isNameChar = false ∨ right.head?.any isNameChar = false

theorem Severed.of_append {left middle right : List Char} (h : Severed (left ++ middle) right) :
    Severed middle right :=
  h.imp_left any_getLast?_of_append

/-! ## Lists of lexemes that are read back -/

/-- Lexemes that are read back from their text when it stands behind a character. -/
inductive Lexed : (before : Option Char) → List Lexeme → Prop
  | nil (before : Option Char) : Lexed before []
  | name {before : Option Char} {ident : String} {ls : List Lexeme}
    (hident : IsIdentifier ident.toList) (hbefore : before.any isWordChar = false)
    (hbehind : (spell ls).head?.any isNameChar = false) (h : Lexed ident.toList.getLast? ls) :
    Lexed before (.name ident :: ls)
  | char {before : Option Char} {c : Char} {ls : List Lexeme}
    (hc : startsName before c = false) (h : Lexed (some c) ls) : Lexed before (.char c :: ls)

/-- Of the character in front it counts only whether it is a word character. -/
theorem Lexed.congr {before before' : Option Char} {ls : List Lexeme}
    (hword : before.any isWordChar = before'.any isWordChar) (h : Lexed before ls) :
    Lexed before' ls := by
  cases h with
  | nil => exact .nil before'
  | name hident hbefore hbehind h => exact .name hident (hword ▸ hbefore) hbehind h
  | char hc h => exact .char (by rwa [startsName, ← hword]) h

/-- Lexemes that are read back are those of their text. -/
theorem Lexed.occurrences {front : List Char} {ls : List Lexeme} (h : Lexed front.getLast? ls) :
    (occurrences front (spell ls)).map Occurrence.lexeme = ls := by
  generalize hbefore : front.getLast? = before at h
  induction h generalizing front with
  | nil => rw [spell_nil, occurrences_nil, List.map_nil]
  | @name before ident ls hident hword hbehind h ih =>
    rw [spell_cons, Lexeme.text_name, occurrences_name hident (hbefore ▸ hword) hbehind,
      List.map_cons, ih (hident.getLast?_append front), String.ofList_toList]
  | @char before c ls hc h ih =>
    rw [spell_cons, Lexeme.text_char, List.singleton_append, occurrences_char (hbefore ▸ hc),
      List.map_cons, ih (List.getLast?_concat)]

/-- The first of several lexemes are read back alone as well. -/
theorem Lexed.left {before : Option Char} {ls ms : List Lexeme} (h : Lexed before (ls ++ ms)) :
    Lexed before ls := by
  induction ls generalizing before with
  | nil => exact .nil before
  | cons l ls ih =>
    cases h with
    | name hident hbefore hbehind h =>
      refine .name hident hbefore ?_ (ih h)
      rw [List.append_eq, spell_append] at hbehind
      cases hspell : spell ls with
      | nil => rfl
      | cons x rest => simpa [hspell] using hbehind
    | char hc h => exact .char hc (ih h)

/-- Lexemes behind single characters are read back there. -/
theorem Lexed.right {before : Option Char} {cs : List Char} {ls : List Lexeme}
    (h : Lexed before (cs.map Lexeme.char ++ ls)) : Lexed (cs.getLast?.or before) ls := by
  induction cs generalizing before with
  | nil => exact h
  | cons c cs ih =>
    cases h with
    | char hc h =>
      rw [List.getLast?_cons]
      cases hlast : cs.getLast? <;> simpa [hlast] using ih h

/-- Lexemes that are read back one after the other are read back together if no identifier reaches
from one text into the next. -/
theorem Lexed.append {before : Option Char} {ls ms : List Lexeme} (hls : Lexed before ls)
    (hms : Lexed ((spell ls).getLast?.or before) ms) (hsevered : Severed (spell ls) (spell ms)) :
    Lexed before (ls ++ ms) := by
  induction hls with
  | nil before => exact hms
  | @name before ident ls hident hbefore hbehind h ih =>
    have hlast : (spell (.name ident :: ls)).getLast?.or before =
        (spell ls).getLast?.or ident.toList.getLast? := by
      rw [spell_cons, List.getLast?_append, Option.or_assoc, Lexeme.text_name,
        List.getLast?_eq_some_getLast hident.ne_nil, Option.some_or]
    refine .name hident hbefore ?_ (ih (hlast ▸ hms) hsevered.of_append)
    rw [List.append_eq, spell_append]
    cases hspell : spell ls with
    | nil =>
      refine hsevered.resolve_left fun hlast => ?_
      rw [spell_cons, hspell, List.append_nil, Lexeme.text_name, hident.getLast?_any] at hlast
      contradiction
    | cons x rest => simpa [hspell] using hbehind
  | @char before c ls hc h ih =>
    refine .char hc (ih ?_ (@Severed.of_append [c] _ _ hsevered))
    rw [spell_cons, Lexeme.text_char, List.getLast?_append, Option.or_assoc] at hms
    exact hms

/-! ## Parts of a text -/

/-- An occurrence in a part of a body, seen in the body. -/
def Occurrence.within (front behind : List Char) (o : Occurrence) : Occurrence :=
  ⟨front ++ o.front, o.lexeme, o.behind ++ behind⟩

/-- The lexemes of two texts that no identifier reaches across. -/
theorem occurrences_append {left right : List Char} (h : Severed left right) (front : List Char) :
    occurrences front (left ++ right) = (occurrences front left).map (Occurrence.within [] right) ++
      occurrences (front ++ left) right := by
  induction front, left using reading_induction with
  | nil front => simp
  | name front ident behind hident hfront hbehind ih =>
    have hhead : (behind ++ right).head?.any isNameChar = false := by
      cases behind with
      | nil =>
        refine h.resolve_left fun hlast => ?_
        rw [List.append_nil, hident.getLast?_any] at hlast
        exact absurd hlast (by simp)
      | cons x rest => exact hbehind
    have hsevered : Severed behind right := h.of_append
    rw [List.append_assoc, occurrences_name hident hfront hhead, ih hsevered,
      occurrences_name hident hfront hbehind, List.map_cons, List.cons_append, List.append_assoc]
    rfl
  | char front c rest hc ih =>
    have hsevered : Severed rest right := @Severed.of_append [c] _ _ h
    rw [List.cons_append, occurrences_char hc, occurrences_char hc, ih hsevered, List.map_cons,
      List.cons_append, List.append_assoc]
    rfl

/-- The lexemes of a text that does not stand behind a word do not depend on what is in front. -/
theorem occurrences_behind {before : List Char} (hbefore : before.getLast?.any isWordChar = false)
    (front text : List Char) :
    occurrences (before ++ front) text =
      (occurrences front text).map (Occurrence.within before []) := by
  have hword : ∀ front : List Char,
      (before ++ front).getLast?.any isWordChar = front.getLast?.any isWordChar := by
    intro front
    rw [List.getLast?_append]
    cases front.getLast? with
    | none => simpa using hbefore
    | some x => rfl
  induction front, text using reading_induction with
  | nil front => simp
  | name front ident behind hident hfront hbehind ih =>
    rw [occurrences_name hident (hword front ▸ hfront) hbehind,
      occurrences_name hident hfront hbehind, List.map_cons, ← ih, List.append_assoc]
    simp [Occurrence.within]
  | char front c rest hc ih =>
    have hc' : startsName (before ++ front).getLast? c = false := by rwa [startsName, hword front]
    rw [occurrences_char hc', occurrences_char hc, List.map_cons, ← ih, List.append_assoc]
    simp [Occurrence.within]

/-! ## Single lexemes -/

/-- Where a lexeme of a text stands. -/
theorem mem_occurrences {front text : List Char} {o : Occurrence} (h : o ∈ occurrences front text) :
    (∃ a, o.front = front ++ a ∧ text = a ++ (o.lexeme.text ++ o.behind)) ∧
      ∀ ident, o.lexeme = .name ident → IsIdentifier ident.toList := by
  induction front, text using reading_induction with
  | nil front => simp at h
  | name front ident behind hident hfront hbehind ih =>
    rw [occurrences_name hident hfront hbehind] at h
    rcases List.mem_cons.mp h with rfl | h
    · refine ⟨⟨[], by simp, by simp⟩, fun name hname => ?_⟩
      rw [← Lexeme.name.inj hname, String.toList_ofList]
      exact hident
    · obtain ⟨⟨a, ha, hsplit⟩, hname⟩ := ih h
      exact ⟨⟨ident ++ a, by simp [ha], by rw [List.append_assoc, ← hsplit]⟩, hname⟩
  | char front c rest hc ih =>
    rw [occurrences_char hc] at h
    rcases List.mem_cons.mp h with rfl | h
    · exact ⟨⟨[], by simp, by simp⟩, fun name hname => Lexeme.noConfusion hname⟩
    · obtain ⟨⟨a, ha, hsplit⟩, hname⟩ := ih h
      exact ⟨⟨c :: a, by simp [ha], by rw [List.cons_append, ← hsplit]⟩, hname⟩

/-- The first lexeme of a text. -/
theorem occurrences_first (front : List Char) {text : List Char} (h : text ≠ []) :
    ∃ o os, occurrences front text = o :: os ∧ o.front = front ∧
      o.lexeme.text.head? = text.head? := by
  induction front, text using reading_induction with
  | nil front => contradiction
  | name front ident behind hident hfront hbehind =>
    refine ⟨_, _, occurrences_name hident hfront hbehind, rfl, ?_⟩
    rw [Lexeme.text_name, String.toList_ofList, List.head?_append,
      List.head?_eq_some_head hident.ne_nil, Option.some_or]
  | char front c rest hc => exact ⟨_, _, occurrences_char hc, rfl, rfl⟩

/-- The last lexeme of a text. -/
theorem occurrences_last (front : List Char) {text : List Char} (h : text ≠ []) :
    ∃ os o, occurrences front text = os ++ [o] ∧ o.behind = [] ∧
      o.lexeme.text.getLast? = text.getLast? := by
  induction front, text using reading_induction with
  | nil front => contradiction
  | name front ident behind hident hfront hbehind ih =>
    rw [occurrences_name hident hfront hbehind]
    rcases eq_or_ne behind [] with rfl | hne
    · rw [occurrences_nil]
      exact ⟨[], _, rfl, rfl, by simp⟩
    · obtain ⟨os, o, hos, hbehind, hlast⟩ := ih hne
      refine ⟨_ :: os, o, by rw [hos, List.cons_append], hbehind, ?_⟩
      rw [hlast, List.getLast?_append, List.getLast?_eq_some_getLast hne, Option.some_or]
  | char front c rest hc ih =>
    rw [occurrences_char hc]
    rcases eq_or_ne rest [] with rfl | hne
    · rw [occurrences_nil]
      exact ⟨[], _, rfl, rfl, rfl⟩
    · obtain ⟨os, o, hos, hbehind, hlast⟩ := ih hne
      refine ⟨_ :: os, o, by rw [hos, List.cons_append], hbehind, ?_⟩
      rw [hlast, List.getLast?_cons_of_ne_nil hne]

end AnnotatedShader.Glsl
