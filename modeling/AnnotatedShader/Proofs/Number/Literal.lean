import AnnotatedShader.Proofs.Number.Digits
import AnnotatedShader.Proofs.Number.Rounding
import AnnotatedShader.Proofs.Text.Run

set_option autoImplicit false

/-!
# Numbers of documents

The grammar of numbers of RFC 8259: an optional minus sign, a whole part without needless zeros, an
optional fraction and an optional exponent.  The binary64 value of such a number depends on the
digits and on what the exponent is, and not on how this is spelled.

`Literal` is a number of the grammar by its parts, with their well-formedness in its fields, and
`toText` the text of one.  The reader of floating literals cuts a text into these parts again
(`ofText_toText`), whatever the parts are.  Its value is the rounded quotient of the significant
digits at their power of ten; `ofText_toText_of_roundsTo` is the form in which the writer uses it.
-/

namespace AnnotatedShader.Number

/-- Digits, one at least. -/
structure IsDigits (text : List Char) : Prop where
  ne_nil : text ≠ []
  isDigit : ∀ c ∈ text, c.isDigit = true

/-- An exponent: its mark, its sign if it has one, and its digits. -/
structure ExponentPart where
  mark : Char
  sign : List Char
  digits : List Char
  mark_mem : mark = 'e' ∨ mark = 'E'
  sign_mem : sign = [] ∨ sign = ['+'] ∨ sign = ['-']
  isDigits : IsDigits digits

/-- The small letter is a mark. -/
theorem ExponentPart.small_mark : 'e' = 'e' ∨ 'e' = 'E' := .inl rfl

/-- A number of a document. -/
structure Literal where
  negative : Bool
  whole : List Char
  fraction : Option (List Char)
  exponent : Option ExponentPart
  whole_isDigits : IsDigits whole
  whole_zero : whole.head? = some '0' → whole = ['0']
  fraction_isDigits : ∀ digits ∈ fraction, IsDigits digits

def ExponentPart.toText (e : ExponentPart) : List Char := e.mark :: (e.sign ++ e.digits)

/-- The integer that an exponent is. -/
def ExponentPart.value (e : ExponentPart) : Int :=
  if e.sign = ['-'] then -(natOfDigits e.digits : Int) else natOfDigits e.digits

/-- No digit is a sign, a point or the mark of an exponent. -/
theorem ne_of_isDigit {c d : Char} (h : c.isDigit = true) (hd : d.isDigit = false) : c ≠ d := by
  rintro rfl
  rw [h] at hd
  contradiction

theorem exponentOfText_text (e : ExponentPart) :
    Binary64.exponentOfText (e.sign ++ e.digits) = e.value := by
  obtain ⟨mark, sign, digits, _, hsign, hdigits⟩ := e
  rcases hsign with rfl | rfl | rfl
  · cases digits with
    | nil => exact absurd rfl hdigits.ne_nil
    | cons c rest =>
      have hc := hdigits.isDigit c List.mem_cons_self
      have hplus := ne_of_isDigit hc (d := '+') (by decide)
      have hminus := ne_of_isDigit hc (d := '-') (by decide)
      simp [Binary64.exponentOfText, intOfDigits, ExponentPart.value, hplus, hminus]
  · simp [Binary64.exponentOfText, ExponentPart.value]
  · simp [Binary64.exponentOfText, intOfDigits, ExponentPart.value]

namespace Literal

/-- The sign as it is written. -/
def sign (n : Literal) : List Char := if n.negative then ['-'] else []

/-- The digits of the fraction. -/
def fractionDigits (n : Literal) : List Char := n.fraction.getD []

/-- The fraction as it is written. -/
def fractionText (n : Literal) : List Char := (n.fraction.map ('.' :: ·)).getD []

/-- The exponent as it is written. -/
def exponentText (n : Literal) : List Char := (n.exponent.map ExponentPart.toText).getD []

def toText (n : Literal) : List Char := n.sign ++ n.whole ++ n.fractionText ++ n.exponentText

/-- The exponent of ten. -/
def power (n : Literal) : Int := (n.exponent.map ExponentPart.value).getD 0

/-- All digits, without zeros in front. -/
def significant (n : Literal) : List Char := (n.whole ++ n.fractionDigits).dropWhile (· == '0')

/-- The magnitude of the number. -/
def magnitude (n : Literal) : ℚ :=
  natOfDigits (n.whole ++ n.fractionDigits) * 10 ^ (n.power - n.fractionDigits.length)

/-- A number without fraction and exponent is an integer. -/
def isInteger (n : Literal) : Bool := n.fraction.isNone && n.exponent.isNone

/-! ## Parts found again -/

theorem isDigit_of_mem {n : Literal} {c : Char} (h : c ∈ n.whole ++ n.fractionDigits) :
    c.isDigit = true := by
  rcases List.mem_append.mp h with h | h
  · exact n.whole_isDigits.isDigit c h
  · cases hfraction : n.fraction with
    | none => simp [fractionDigits, hfraction] at h
    | some digits =>
      rw [fractionDigits, hfraction] at h
      exact (n.fraction_isDigits digits hfraction).isDigit c h

theorem fractionText_eq (n : Literal) :
    n.fractionText = [] ∧ n.fractionDigits = [] ∨ n.fractionText = '.' :: n.fractionDigits := by
  cases h : n.fraction <;> simp [fractionText, fractionDigits, h]

theorem exists_whole_eq_cons (n : Literal) :
    ∃ c rest, n.whole = c :: rest ∧ c.isDigit = true := by
  cases h : n.whole with
  | nil => exact absurd h n.whole_isDigits.ne_nil
  | cons c rest => exact ⟨c, rest, rfl, n.whole_isDigits.isDigit c (h ▸ List.mem_cons_self)⟩

/-- The number without its sign. -/
def body (n : Literal) : List Char := n.whole ++ n.fractionText ++ n.exponentText

theorem toText_eq (n : Literal) : n.toText = n.sign ++ n.body := by
  simp [toText, body, List.append_assoc]

theorem head?_body_ne (n : Literal) : n.body.head? ≠ some '-' := by
  obtain ⟨c, rest, hwhole, hc⟩ := n.exists_whole_eq_cons
  have hne := ne_of_isDigit hc (d := '-') (by decide)
  simpa [body, hwhole] using hne

theorem head?_toText (n : Literal) : (n.toText.head? == some '-') = n.negative := by
  have hne := n.head?_body_ne
  rw [toText_eq, sign]
  cases n.negative with
  | false => simpa using hne
  | true => simp

theorem unsigned_toText (n : Literal) : unsigned n.toText = n.body := by
  obtain ⟨c, rest, hwhole, hc⟩ := n.exists_whole_eq_cons
  have hne := ne_of_isDigit hc (d := '-') (by decide)
  rw [toText_eq, sign]
  cases n.negative with
  | false => simp [unsigned, body, hwhole, hne]
  | true => simp [unsigned]

/-- A character of the mantissa marks no exponent. -/
theorem not_mark_of_mem {n : Literal} {c : Char} (h : c ∈ n.whole ++ n.fractionText) :
    (!(c == 'e' || c == 'E')) = true := by
  have hdigits : c ∈ n.whole ++ n.fractionDigits → (!(c == 'e' || c == 'E')) = true := by
    intro h
    have he := ne_of_isDigit (isDigit_of_mem h) (d := 'e') (by decide)
    have hE := ne_of_isDigit (isDigit_of_mem h) (d := 'E') (by decide)
    simp [he, hE]
  rcases n.fractionText_eq with ⟨htext, -⟩ | htext
  · rw [htext, List.append_nil] at h
    exact hdigits (List.mem_append_left _ h)
  · rw [htext] at h
    rcases List.mem_append.mp h with h | h
    · exact hdigits (List.mem_append_left _ h)
    · rcases List.mem_cons.mp h with rfl | h
      · decide
      · exact hdigits (List.mem_append_right _ h)

theorem exponentText_drop (n : Literal) :
    Binary64.exponentOfText (n.exponentText.drop 1) = n.power := by
  cases h : n.exponent with
  | none => simp [exponentText, power, h, Binary64.exponentOfText, intOfDigits]
  | some e =>
    simpa [exponentText, power, h, ExponentPart.toText] using exponentOfText_text e

theorem head?_exponentText (n : Literal) :
    n.exponentText.head?.any (fun c => !(c == 'e' || c == 'E')) = false := by
  cases h : n.exponent with
  | none => simp [exponentText, h]
  | some e =>
    rcases e.mark_mem with hmark | hmark <;> simp [exponentText, h, ExponentPart.toText, hmark]

theorem mantissa_cut (n : Literal) :
    (n.whole ++ n.fractionText).takeWhile (· != '.') = n.whole ∧
      ((n.whole ++ n.fractionText).dropWhile (· != '.')).drop 1 = n.fractionDigits := by
  have hwhole : ∀ c ∈ n.whole, (c != '.') = true := fun c hc =>
    bne_iff_ne.mpr (ne_of_isDigit (n.whole_isDigits.isDigit c hc) (by decide))
  rcases n.fractionText_eq with ⟨htext, hdigits⟩ | htext
  · obtain ⟨htake, hdrop⟩ := @Text.takeWhile_append_of_head? _ _ [] hwhole rfl
    rw [htext, htake, hdrop, hdigits]
    exact ⟨rfl, rfl⟩
  · obtain ⟨htake, hdrop⟩ :=
      @Text.takeWhile_append_of_head? _ _ ('.' :: n.fractionDigits) hwhole rfl
    rw [htext, htake, hdrop]
    exact ⟨rfl, rfl⟩

/-- The value of a number depends on its digits and on its exponent as an integer. -/
theorem ofText_toText (n : Literal) :
    Binary64.ofText n.toText =
      .ofDecimal n.negative (natOfDigits n.significant) n.significant.length
        (n.power - n.fractionDigits.length) := by
  obtain ⟨htake, hdrop⟩ := Text.takeWhile_append_of_head?
    (fun c hc => n.not_mark_of_mem hc) n.head?_exponentText
  obtain ⟨hwhole, hfraction⟩ := n.mantissa_cut
  simp only [Binary64.ofText]
  rw [n.head?_toText, n.unsigned_toText, body, htake, hdrop, hwhole, hfraction,
    n.exponentText_drop, significant]

/-! ## Values -/

theorem natOfDigits_significant (n : Literal) :
    natOfDigits n.significant = natOfDigits (n.whole ++ n.fractionDigits) :=
  natOfDigits_dropWhile_zero _

/-- A number in the rounding interval of a canonical value is read as this value. -/
theorem ofText_toText_of_roundsTo {n : Literal} {s : Nat} {e : Int} (hpos : 0 < s)
    (hs : (Binary64.finite n.negative s e).Canonical) (h : Binary64.RoundsTo n.magnitude s e) :
    Binary64.ofText n.toText = .finite n.negative s e := by
  rw [ofText_toText]
  rw [magnitude, ← natOfDigits_significant] at h
  cases hdigits : n.significant with
  | nil =>
    -- the magnitude zero is in no interval of a positive value
    rw [hdigits] at h
    have := h.pos hpos
    simp at this
  | cons c rest =>
    rw [hdigits] at h
    have hmem : ∀ x ∈ c :: rest, x.isDigit = true := fun x hx =>
      isDigit_of_mem (List.dropWhile_subset _ (hdigits ▸ hx))
    have hc : c ≠ '0' := by
      have := List.head?_dropWhile_not (· == '0') (n.whole ++ n.fractionDigits)
      rw [← significant, hdigits] at this
      simpa using this
    refine Binary64.ofDecimal_eq ?_ (natOfDigits_lt hmem) hpos hs h
    have := le_natOfDigits rest (hmem c List.mem_cons_self) hc
    rw [List.length_cons, Nat.pow_succ]
    omega

/-- An integer is its sign and its whole part. -/
theorem toText_of_isInteger {n : Literal} (h : n.isInteger = true) :
    n.toText = n.sign ++ n.whole := by
  simp only [isInteger, Bool.and_eq_true, Option.isNone_iff_eq_none] at h
  simp [toText, fractionText, exponentText, h.1, h.2]

theorem intOfDigits_toText {n : Literal} (h : n.isInteger = true) :
    intOfDigits n.toText =
      if n.negative then -(natOfDigits n.whole : Int) else natOfDigits n.whole := by
  obtain ⟨c, rest, hwhole, hc⟩ := n.exists_whole_eq_cons
  have hne := ne_of_isDigit hc (d := '-') (by decide)
  rw [toText_of_isInteger h, sign]
  cases n.negative with
  | false => simp [intOfDigits, hwhole, hne]
  | true => simp [intOfDigits]

end Literal

end AnnotatedShader.Number
