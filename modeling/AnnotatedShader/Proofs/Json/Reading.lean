import AnnotatedShader.Proofs.Json.Grammar
import AnnotatedShader.Proofs.Text.Run

set_option autoImplicit false

/-!
# The reader of documents is complete

Every text of the grammar is read, as the value that it denotes (`parse_of_isDocument`).  With what
is known of the writer a document is then read back as the value that it was written from.

A reader is given more text than it needs, and leaves what follows.  A number ends where the text
does not go on with it, so what follows a value must not (`Closes`); commas, brackets, blanks and
the end do.  Each part of the grammar has a lemma of the form that its text in front of any rest is
read, and the rest is left.  The fuel of the reader is bounded by the length of the text
(`exists_fuel`), and lists of items and of members go by induction on the derivation.
-/

namespace AnnotatedShader.Json

open AnnotatedShader.Number
open AnnotatedShader.Text

/-! ## Strings -/

theorem ne_u_of_escaped? {e c : Char} (h : escaped? e = some c) : e ≠ 'u' := by
  rintro rfl
  simp [escaped?] at h

theorem readUnits_append {text : List Char} {units : List Nat} (h : DenotesUnits text units)
    (rest : List Char) : readUnits (text ++ '"' :: rest) = some (units, rest) := by
  induction h with
  | nil => simp [readUnits]
  | plain hcontrol _ hbackslash _ ih =>
    simp [readUnits, hbackslash, ih, Nat.not_lt.mpr hcontrol]
  | letter he _ ih =>
    simp [readUnits, ne_u_of_escaped? he, he, ih]
  | unit hunit _ ih =>
    simp [readUnits, hunit, ih]

theorem exists_readString_append {text : List Char} {s : String} (h : DenotesString text s)
    (rest : List Char) :
    ∃ body, text = '"' :: body ∧ readString (body ++ rest) = some (s, rest) := by
  cases h with
  | quoted hbody hunits =>
    exact ⟨_, rfl, by simp [readString, readUnits_append hbody, hunits]⟩

/-! ## Numbers -/

/-- Whether a number may go on with a character. -/
def continuesNumber (c : Char) : Bool := c.isDigit || c == '.' || c == 'e' || c == 'E'

theorem readDigits_append {digits rest : List Char} (hdigits : IsDigits digits)
    (hrest : rest.head?.any Char.isDigit = false) :
    readDigits (digits ++ rest) = some (digits, rest) := by
  obtain ⟨htake, -⟩ := takeWhile_append_of_head? hdigits.isDigit hrest
  have hne : digits.isEmpty = false := by simpa using hdigits.ne_nil
  simp [readDigits, htake, hne]

theorem any_eq_false_of_imp {p q : Char → Bool} {c? : Option Char}
    (himp : ∀ c, p c = true → q c = true)
    (h : c?.any q = false) : c?.any p = false := by
  cases c? with
  | none => rfl
  | some c =>
    have hq : q c = false := by simpa using h
    refine Bool.eq_false_iff.mpr fun hp => ?_
    rw [Option.any_some] at hp
    rw [himp c hp] at hq
    contradiction

theorem readWhole_append (n : Literal) {rest : List Char}
    (hrest : rest.head?.any Char.isDigit = false) :
    readWhole (n.whole ++ rest) = some (n.whole, rest) := by
  obtain ⟨c, tail, hwhole, hc⟩ := n.exists_whole_eq_cons
  by_cases hzero : c = '0'
  · have h := n.whole_zero (by rw [hwhole, hzero]; rfl)
    rw [h]
    rfl
  · have h := readDigits_append n.whole_isDigits hrest
    rw [hwhole, List.cons_append] at h ⊢
    rwa [readWhole]
    simpa using hzero

theorem readFraction_append (n : Literal) {rest : List Char}
    (hdigit : rest.head?.any Char.isDigit = false) (hpoint : rest.head? ≠ some '.') :
    readFraction (n.fractionText ++ rest) = some (n.fractionText, rest) := by
  cases h : n.fraction with
  | none =>
    simp only [Literal.fractionText, h, Option.map_none, Option.getD_none, List.nil_append]
    cases rest with
    | nil => rfl
    | cons c tail =>
      have hc : c ≠ '.' := by simpa using hpoint
      simp [readFraction, hc]
  | some digits =>
    simp [Literal.fractionText, h, readFraction,
      readDigits_append (n.fraction_isDigits digits h) hdigit]

/-- The sign of an exponent as the reader keeps it: a minus sign if there is one. -/
def plainSign (e : ExponentPart) : List Char := e.sign.filter (· == '-')

theorem plainSign_cases (e : ExponentPart) :
    e.sign ≠ ['-'] ∧ plainSign e = [] ∨ e.sign = ['-'] ∧ plainSign e = ['-'] := by
  rcases e.sign_mem with h | h | h <;> simp [plainSign, h]

/-- An exponent as the reader keeps it. -/
def plainExponent (e : ExponentPart) : ExponentPart where
  mark := 'e'
  sign := plainSign e
  digits := e.digits
  mark_mem := ExponentPart.small_mark
  sign_mem := (plainSign_cases e).imp And.right fun h => .inr h.2
  isDigits := e.isDigits

theorem value_plainExponent (e : ExponentPart) : (plainExponent e).value = e.value := by
  rcases plainSign_cases e with ⟨hne, hsign⟩ | ⟨heq, hsign⟩ <;>
    simp [ExponentPart.value, plainExponent, *]

/-- A number as the reader keeps it. -/
def plainLiteral (n : Literal) : Literal :=
  { n with exponent := n.exponent.map plainExponent }

theorem ofText_plainLiteral (n : Literal) :
    Binary64.ofText (plainLiteral n).toText = Binary64.ofText n.toText := by
  have hpower : (plainLiteral n).power = n.power := by
    cases h : n.exponent with
    | none => simp [plainLiteral, Literal.power, h]
    | some e => simp [plainLiteral, Literal.power, h, value_plainExponent]
  rw [Literal.ofText_toText, Literal.ofText_toText, hpower]
  rfl

theorem readExponent_toText (e : ExponentPart) {rest : List Char}
    (hrest : rest.head?.any Char.isDigit = false) :
    readExponent (e.toText ++ rest) = some ((plainExponent e).toText, rest) := by
  obtain ⟨mark, sign, digits, hmark, hsign, hdigits⟩ := e
  have hread := readDigits_append hdigits hrest
  rcases hsign with rfl | rfl | rfl
  · cases digits with
    | nil => exact absurd rfl hdigits.ne_nil
    | cons c tail =>
      have hc := hdigits.isDigit c List.mem_cons_self
      have hplus := ne_of_isDigit hc (d := '+') (by decide)
      have hminus := ne_of_isDigit hc (d := '-') (by decide)
      rw [List.cons_append] at hread
      simp [readExponent, ExponentPart.toText, plainExponent, plainSign, hmark, hplus, hminus,
        hread]
  · simp [readExponent, ExponentPart.toText, plainExponent, plainSign, hmark, hread]
  · simp [readExponent, ExponentPart.toText, plainExponent, plainSign, hmark, hread]

theorem readExponent_append (n : Literal) {rest : List Char}
    (hrest : rest.head?.any continuesNumber = false) :
    readExponent (n.exponentText ++ rest) = some ((plainLiteral n).exponentText, rest) := by
  cases h : n.exponent with
  | none =>
    simp only [Literal.exponentText, plainLiteral, h, Option.map_none, Option.getD_none,
      List.nil_append]
    cases rest with
    | nil => rfl
    | cons c tail =>
      have hc : c ≠ 'e' ∧ c ≠ 'E' := by
        simp only [List.head?_cons, Option.any_some, continuesNumber, Bool.or_eq_false_iff,
          beq_eq_false_iff_ne] at hrest
        exact ⟨hrest.1.2, hrest.2⟩
      simp [readExponent, hc]
  | some e =>
    simp only [Literal.exponentText, plainLiteral, h, Option.map_some, Option.getD_some]
    exact readExponent_toText e
      (any_eq_false_of_imp (fun c hc => by simp [continuesNumber, hc]) hrest)

/-- What is behind the whole part goes on with no digit. -/
theorem any_isDigit_append (n : Literal) {rest : List Char}
    (hrest : rest.head?.any continuesNumber = false) :
    (n.exponentText ++ rest).head?.any Char.isDigit = false ∧
      (n.exponentText ++ rest).head? ≠ some '.' ∧
      (n.fractionText ++ (n.exponentText ++ rest)).head?.any Char.isDigit = false := by
  have hdigit : rest.head?.any Char.isDigit = false :=
    any_eq_false_of_imp (fun c hc => by simp [continuesNumber, hc]) hrest
  have hpoint : rest.head? ≠ some '.' := by
    intro h
    rw [h] at hrest
    contradiction
  have hexponent : (n.exponentText ++ rest).head?.any Char.isDigit = false ∧
      (n.exponentText ++ rest).head? ≠ some '.' := by
    cases h : n.exponent with
    | none =>
      simp only [Literal.exponentText, h, Option.map_none, Option.getD_none, List.nil_append]
      exact ⟨hdigit, hpoint⟩
    | some e =>
      rcases e.mark_mem with hmark | hmark <;>
        simp [Literal.exponentText, h, ExponentPart.toText, hmark]
  refine ⟨hexponent.1, hexponent.2, ?_⟩
  rcases n.fractionText_eq with ⟨htext, -⟩ | htext
  · rw [htext, List.nil_append]
    exact hexponent.1
  · rw [htext]
    rfl

/-- The value of a number. -/
def literalValue (n : Literal) : Json :=
  if n.isInteger then .int (intOfDigits n.toText) else .float (Binary64.ofText n.toText)

theorem readNumber_append (n : Literal) {rest : List Char}
    (hrest : rest.head?.any continuesNumber = false) :
    readNumber (n.toText ++ rest) = some (literalValue n, rest) := by
  obtain ⟨hexponent, hpoint, hfraction⟩ := any_isDigit_append n hrest
  have hsign : (if (n.toText ++ rest).head? == some '-' then ['-'] else []) = n.sign := by
    have hne : n.toText ≠ [] := by
      obtain ⟨c, tail, hwhole, -⟩ := n.exists_whole_eq_cons
      simp [Literal.toText, hwhole]
    rw [List.head?_append_of_ne_nil _ hne, n.head?_toText, Literal.sign]
  have hbody : (n.toText ++ rest).drop n.sign.length =
      n.whole ++ (n.fractionText ++ (n.exponentText ++ rest)) := by
    simp [n.toText_eq, Literal.body]
  simp only [readNumber, hsign, hbody, readWhole_append n hfraction,
    readFraction_append n hexponent hpoint, readExponent_append n hrest, Option.bind_eq_bind,
    Option.bind_some, literalValue]
  by_cases hinteger : n.isInteger = true
  · have hparts := hinteger
    simp only [Literal.isInteger, Bool.and_eq_true, Option.isNone_iff_eq_none] at hparts
    simp [hinteger, Literal.fractionText, Literal.exponentText, plainLiteral, hparts,
      Literal.toText_of_isInteger hinteger]
  · have hparts : (n.fractionText.isEmpty && (plainLiteral n).exponentText.isEmpty) = false := by
      refine Bool.eq_false_iff.mpr fun hempty => hinteger ?_
      simp only [Literal.fractionText, Literal.exponentText, plainLiteral, Bool.and_eq_true,
        List.isEmpty_iff] at hempty
      rw [Literal.isInteger]
      cases hf : n.fraction <;> cases he : n.exponent <;>
        simp [hf, he, ExponentPart.toText] at hempty ⊢
    have htext : n.sign ++ n.whole ++ n.fractionText ++ (plainLiteral n).exponentText =
        (plainLiteral n).toText := rfl
    rw [hparts, htext, ofText_plainLiteral, if_neg hinteger, if_neg (by decide)]

/-! ## Values -/

theorem skipBlanks_append {gap rest : List Char} (hgap : IsGap gap)
    (hrest : rest.head?.any isGap = false) : skipBlanks (gap ++ rest) = rest :=
  (takeWhile_append_of_head? hgap hrest).2

theorem skipBlanks_of_head? {text : List Char} (h : text.head?.any isGap = false) :
    skipBlanks text = text :=
  dropWhile_of_head? h

theorem skipBlanks_gap_append {gap : List Char} (hgap : IsGap gap) (rest : List Char) :
    skipBlanks (gap ++ rest) = skipBlanks rest :=
  List.dropWhile_append_of_pos hgap

/-- A text that may stand behind a value. -/
def Closes (rest : List Char) : Prop := rest.head?.any continuesNumber = false

theorem closes_gap_append {gap rest : List Char} (hgap : IsGap gap) (hrest : Closes rest) :
    Closes (gap ++ rest) := by
  cases gap with
  | nil => exact hrest
  | cons c tail =>
    have hc := hgap c List.mem_cons_self
    simp only [isGap, Bool.or_eq_true, beq_iff_eq] at hc
    rcases hc with ((rfl | rfl) | rfl) | rfl <;> rfl

/-- Where a part starts: a value and the items of an array with nothing that closes the array, a
member with the quote of its name. -/
def Starts (text : List Char) : Part → Prop
  | .value _ => ∃ c tail, text = c :: tail ∧ isGap c = false ∧ c ≠ ']'
  | .element _ | .items _ => ∀ rest, ∃ c tail, skipBlanks (text ++ rest) = c :: tail ∧ c ≠ ']'
  | .member _ | .members _ => ∀ rest, ∃ tail, skipBlanks (text ++ rest) = '"' :: tail

theorem isGap_eq_false {c : Char} (hc : c.isDigit = true ∨ c = '-') : isGap c = false := by
  rcases hc with hc | rfl
  · have hspace := ne_of_isDigit hc (d := ' ') (by decide)
    have htab := ne_of_isDigit hc (d := '\t') (by decide)
    have hfeed := ne_of_isDigit hc (d := '\n') (by decide)
    have hreturn := ne_of_isDigit hc (d := '\r') (by decide)
    simp [isGap, hspace, htab, hfeed, hreturn]
  · rfl

theorem exists_toText_eq_cons (n : Literal) :
    ∃ c tail, n.toText = c :: tail ∧ (c.isDigit = true ∨ c = '-') := by
  obtain ⟨c, tail, hwhole, hc⟩ := n.exists_whole_eq_cons
  rw [n.toText_eq, Literal.sign, Literal.body, hwhole]
  cases n.negative with
  | false => exact ⟨c, _, rfl, .inl hc⟩
  | true => exact ⟨'-', _, rfl, .inr rfl⟩

theorem starts_toText (n : Literal) (j : Json) : Starts n.toText (.value j) := by
  obtain ⟨c, tail, htext, hc⟩ := exists_toText_eq_cons n
  refine ⟨c, tail, htext, isGap_eq_false hc, ?_⟩
  rintro rfl
  exact absurd hc (by decide)

theorem Denotes.starts {text : List Char} {p : Part} (h : Denotes text p) : Starts text p := by
  induction h with
  | null | yes | no | emptyArray | array | emptyObject | object =>
    exact ⟨_, _, rfl, rfl, by decide⟩
  | int n | float n => exact starts_toText n _
  | str h =>
    cases h
    exact ⟨_, _, rfl, rfl, by decide⟩
  | element hfront _ _ ih =>
    intro rest
    obtain ⟨c, tail, rfl, hgap, hc⟩ := ih
    rw [List.append_assoc, skipBlanks_append hfront (by simpa using hgap)]
    exact ⟨c, _, rfl, hc⟩
  | member hfront hname _ _ _ =>
    intro rest
    cases hname
    rw [List.append_assoc, skipBlanks_append hfront rfl]
    exact ⟨_, rfl⟩
  | lastItem _ ih | lastMember _ ih => exact ih
  | item _ _ ih _ | nextMember _ _ ih _ =>
    intro rest
    rw [List.append_assoc]
    exact ih _

/-! ## The reader at each part -/

theorem readValue_gap_append {gap : List Char} (hgap : IsGap gap) (fuel : Nat) (rest : List Char) :
    readValue fuel (gap ++ rest) = readValue fuel rest := by
  cases fuel with
  | zero => rfl
  | succ fuel => rw [readValue, readValue, skipBlanks_gap_append hgap]

theorem exists_eq_gap_append (text : List Char) :
    ∃ gap, IsGap gap ∧ text = gap ++ skipBlanks text :=
  ⟨text.takeWhile isGap, fun _ => List.mem_takeWhile_imp, List.takeWhile_append_dropWhile.symm⟩

theorem readItems_skipBlanks (fuel : Nat) (text : List Char) :
    readItems fuel (skipBlanks text) = readItems fuel text := by
  cases fuel with
  | zero => rfl
  | succ fuel =>
    obtain ⟨gap, hgap, htext⟩ := exists_eq_gap_append text
    have h := readValue_gap_append hgap fuel (skipBlanks text)
    rw [← htext] at h
    rw [readItems, readItems, h]

theorem readMembers_skipBlanks (fuel : Nat) (text : List Char) :
    readMembers fuel (skipBlanks text) = readMembers fuel text := by
  cases fuel with
  | zero => rfl
  | succ fuel =>
    obtain ⟨gap, hgap, htext⟩ := exists_eq_gap_append text
    have h := skipBlanks_gap_append hgap (skipBlanks text)
    rw [← htext] at h
    rw [readMembers, readMembers, ← h]

/-- A digit or a minus sign starts a number. -/
theorem readValue_eq_readNumber (fuel : Nat) {c : Char} {tail : List Char}
    (hc : c.isDigit = true ∨ c = '-') :
    readValue (fuel + 1) (c :: tail) = readNumber (c :: tail) := by
  rw [readValue, skipBlanks_of_head? (by simpa using isGap_eq_false hc)]
  -- none of the other values starts so
  split <;> rename_i heq
  iterate 6
    · obtain ⟨rfl, -⟩ := List.cons.inj heq
      exact absurd hc (by decide)
  · rfl

theorem readValue_array (fuel : Nat) {text rest : List Char} {js : List Json}
    (hstart : ∀ rest, ∃ c tail, skipBlanks (text ++ rest) = c :: tail ∧ c ≠ ']')
    (h : readItems fuel (text ++ ']' :: rest) = some (js, rest)) :
    readValue (fuel + 1) ('[' :: (text ++ [']']) ++ rest) = some (.array js, rest) := by
  obtain ⟨c, tail, hskip, hc⟩ := hstart (']' :: rest)
  have htext : '[' :: (text ++ [']']) ++ rest = '[' :: (text ++ ']' :: rest) := by simp
  rw [← readItems_skipBlanks, hskip] at h
  rw [htext, readValue, skipBlanks_of_head? rfl]
  simp [hskip, h, hc]

theorem readValue_object (fuel : Nat) {text rest : List Char} {ms : List (String × Json)}
    (hstart : ∀ rest, ∃ tail, skipBlanks (text ++ rest) = '"' :: tail)
    (h : readMembers fuel (text ++ '\x7d' :: rest) = some (ms, rest)) :
    readValue (fuel + 1) ('\x7b' :: (text ++ ['\x7d']) ++ rest) = some (.object ms, rest) := by
  obtain ⟨tail, hskip⟩ := hstart ('\x7d' :: rest)
  have htext : '\x7b' :: (text ++ ['\x7d']) ++ rest = '\x7b' :: (text ++ '\x7d' :: rest) := by simp
  rw [← readMembers_skipBlanks, hskip] at h
  rw [htext, readValue, skipBlanks_of_head? rfl]
  simp [hskip, h]

/-- What reading a part gives, with fuel for each of its characters. -/
def Reads (text : List Char) : Part → Prop
  | .value j => ∀ fuel rest, text.length ≤ fuel → Closes rest →
    readValue fuel (text ++ rest) = some (j, rest)
  | .element j => ∀ fuel rest, text.length ≤ fuel → Closes rest →
    ∃ gap, IsGap gap ∧ readValue fuel (text ++ rest) = some (j, gap ++ rest)
  | .member m => ∀ fuel rest, text.length ≤ fuel → Closes rest →
    ∃ name behind value gap, skipBlanks (text ++ rest) = '"' :: name ∧
      readString name = some (m.1, behind) ∧ skipBlanks behind = ':' :: value ∧
      IsGap gap ∧ readValue fuel value = some (m.2, gap ++ rest)
  | .items js => ∀ fuel rest, text.length < fuel →
    readItems fuel (text ++ ']' :: rest) = some (js, rest)
  | .members ms => ∀ fuel rest, text.length < fuel →
    readMembers fuel (text ++ '\x7d' :: rest) = some (ms, rest)

/-- A text in front of others leaves fuel for what follows. -/
theorem exists_fuel {c : Char} {text : List Char} {fuel : Nat} (h : (c :: text).length ≤ fuel) :
    ∃ left, fuel = left + 1 ∧ text.length ≤ left :=
  ⟨fuel - 1, by rw [List.length_cons] at h; omega, by rw [List.length_cons] at h; omega⟩

theorem reads_number {n : Literal} {j : Json} (hj : literalValue n = j) :
    Reads n.toText (.value j) := by
  intro fuel rest hfuel hrest
  obtain ⟨c, tail, htext, hc⟩ := exists_toText_eq_cons n
  have hread := readNumber_append n hrest
  rw [htext] at hfuel hread ⊢
  obtain ⟨left, rfl, -⟩ := exists_fuel hfuel
  rw [List.cons_append] at hread ⊢
  rw [readValue_eq_readNumber left hc, hread, hj]

theorem reads_string {text : List Char} {s : String} (h : DenotesString text s) :
    Reads text (.value (.str s)) := by
  intro fuel rest hfuel _
  obtain ⟨body, rfl, hread⟩ := exists_readString_append h rest
  obtain ⟨left, rfl, -⟩ := exists_fuel hfuel
  rw [List.cons_append, readValue, skipBlanks_of_head? rfl]
  simp [hread]

/-- Every part is read. -/
theorem Denotes.reads {text : List Char} {p : Part} (h : Denotes text p) : Reads text p := by
  induction h with
  | null | yes | no =>
    intro fuel rest hfuel _
    obtain ⟨left, rfl, -⟩ := exists_fuel hfuel
    rfl
  | int n hinteger => exact reads_number (if_pos hinteger)
  | float n hinteger => exact reads_number (if_neg (by simp [hinteger]))
  | str h => exact reads_string h
  | @emptyArray gap hgap =>
    intro fuel rest hfuel _
    obtain ⟨left, rfl, -⟩ := exists_fuel hfuel
    have hskip : skipBlanks (gap ++ ']' :: rest) = ']' :: rest := skipBlanks_append hgap rfl
    rw [List.cons_append, readValue, skipBlanks_of_head? rfl]
    simp [hskip]
  | @emptyObject gap hgap =>
    intro fuel rest hfuel _
    obtain ⟨left, rfl, -⟩ := exists_fuel hfuel
    have hskip : skipBlanks (gap ++ '\x7d' :: rest) = '\x7d' :: rest := skipBlanks_append hgap rfl
    rw [List.cons_append, readValue, skipBlanks_of_head? rfl]
    simp [hskip]
  | array h ih =>
    intro fuel rest hfuel _
    obtain ⟨left, rfl, hleft⟩ := exists_fuel hfuel
    rw [List.length_append] at hleft
    exact readValue_array left h.starts (ih left rest (Nat.lt_of_succ_le hleft))
  | object h ih =>
    intro fuel rest hfuel _
    obtain ⟨left, rfl, hleft⟩ := exists_fuel hfuel
    rw [List.length_append] at hleft
    exact readValue_object left h.starts (ih left rest (Nat.lt_of_succ_le hleft))
  | @element front text behind j hfront _ hbehind ih =>
    intro fuel rest hfuel hrest
    simp only [List.length_append] at hfuel
    refine ⟨behind, hbehind, ?_⟩
    rw [List.append_assoc, readValue_gap_append hfront, List.append_assoc]
    exact ih fuel (behind ++ rest) (by omega) (closes_gap_append hbehind hrest)
  | @member front name gap text s j hfront hname hgap _ ih =>
    intro fuel rest hfuel hrest
    simp only [List.length_append, List.length_cons] at hfuel
    obtain ⟨body, rfl, hread⟩ := exists_readString_append hname (gap ++ ':' :: (text ++ rest))
    obtain ⟨behind, hbehind, hvalue⟩ := ih fuel rest (by omega) hrest
    refine ⟨_, _, _, behind, ?_, hread, skipBlanks_append hgap rfl, hbehind, hvalue⟩
    have htext : front ++ ('"' :: body ++ (gap ++ ':' :: text)) ++ rest =
        front ++ '"' :: (body ++ (gap ++ ':' :: (text ++ rest))) := by simp
    rw [htext]
    exact skipBlanks_append hfront rfl
  | lastItem _ ih =>
    intro fuel rest hfuel
    obtain ⟨left, rfl, hleft⟩ := exists_fuel (c := ']') hfuel
    obtain ⟨gap, hgap, hread⟩ := ih left (']' :: rest) hleft rfl
    have hskip : skipBlanks (gap ++ ']' :: rest) = ']' :: rest := skipBlanks_append hgap rfl
    simp [readItems, hread, hskip]
  | @item text behind j js _ _ ih ihrest =>
    intro fuel rest hfuel
    obtain ⟨left, rfl, hleft⟩ := exists_fuel (c := ']') hfuel
    simp only [List.length_append, List.length_cons] at hleft
    obtain ⟨gap, hgap, hread⟩ := ih left (',' :: (behind ++ ']' :: rest)) (by omega) rfl
    have hskip :
        skipBlanks (gap ++ ',' :: (behind ++ ']' :: rest)) = ',' :: (behind ++ ']' :: rest) :=
      skipBlanks_append hgap rfl
    simp [readItems, hread, hskip, ihrest left rest (by omega)]
  | lastMember _ ih =>
    intro fuel rest hfuel
    obtain ⟨left, rfl, hleft⟩ := exists_fuel (c := ']') hfuel
    obtain ⟨name, behind, value, gap, hname, hstring, hcolon, hgap, hread⟩ :=
      ih left ('\x7d' :: rest) hleft rfl
    have hskip : skipBlanks (gap ++ '\x7d' :: rest) = '\x7d' :: rest := skipBlanks_append hgap rfl
    simp [readMembers, hname, hstring, hcolon, hread, hskip]
  | @nextMember text behindText m ms _ _ ih ihrest =>
    intro fuel rest hfuel
    obtain ⟨left, rfl, hleft⟩ := exists_fuel (c := ']') hfuel
    simp only [List.length_append, List.length_cons] at hleft
    obtain ⟨name, behind, value, gap, hname, hstring, hcolon, hgap, hread⟩ :=
      ih left (',' :: (behindText ++ '\x7d' :: rest)) (by omega) rfl
    have hskip : skipBlanks (gap ++ ',' :: (behindText ++ '\x7d' :: rest)) =
        ',' :: (behindText ++ '\x7d' :: rest) := skipBlanks_append hgap rfl
    simp [readMembers, hname, hstring, hcolon, hread, hskip, ihrest left rest (by omega)]

/-- A text of the grammar is read as the value that it denotes. -/
theorem parse_of_isDocument {text : String} {j : Json} (h : IsDocument text j) :
    parse text = some j := by
  obtain ⟨gap, hgap, hread⟩ := h.reads (text.toList.length + 1) [] (by omega) rfl
  rw [List.append_nil, List.append_nil] at hread
  have hskip := @skipBlanks_append _ [] hgap rfl
  rw [List.append_nil] at hskip
  simp [parse, hread, hskip]

/-- What is written of an infinity is no document. -/
example : parse (document (.float (.infinite false))) = none := by decide +kernel

end AnnotatedShader.Json
