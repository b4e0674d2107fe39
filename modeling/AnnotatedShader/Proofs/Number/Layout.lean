import AnnotatedShader.Proofs.Number.Literal
import AnnotatedShader.Proofs.Number.Shortest

set_option autoImplicit false

/-!
# Written numbers

Wherever a layout puts the point and whether it writes an exponent, the text is a number of
documents whose magnitude is that of the significant digits at their exponent.  The digits are those
of the shortest decimal, so a canonical value is read back from its text.  An integer is written in
its digits.

`Writes` relates a text to the literal that it is, and there is one lemma for each place of the
point: behind the digits, among them, in front of them with zeros, or behind the first one with an
exponent.  `exists_render_eq` puts them together for every finite value, the zeros with their signs
among them.
-/

namespace AnnotatedShader.Number

/-- The sign of a value and its magnitude make a number that is no integer. -/
structure Writes (negative : Bool) (text : List Char) (magnitude : ℚ) (n : Literal) : Prop where
  text_eq : n.toText = (if negative then ['-'] else []) ++ text
  negative_eq : n.negative = negative
  isInteger_eq : n.isInteger = false
  magnitude_eq : n.magnitude = magnitude

/-! ## Exponents -/

theorem isDigits_toDigits (n : Nat) : IsDigits (Nat.toDigits 10 n) :=
  ⟨List.ne_nil_of_length_pos Nat.length_toDigits_pos, fun _ => isDigit_of_mem_toDigits⟩

theorem exponentDigits_eq (n : Nat) :
    exponentDigits n = Nat.toDigits 10 n ∨ exponentDigits n = '0' :: Nat.toDigits 10 n := by
  simp only [exponentDigits]
  split
  · exact .inr rfl
  · exact .inl rfl

theorem isDigits_exponentDigits (n : Nat) : IsDigits (exponentDigits n) := by
  have h := isDigits_toDigits n
  rcases exponentDigits_eq n with heq | heq <;> rw [heq]
  · exact h
  · exact ⟨List.cons_ne_nil _ _, List.forall_mem_cons.mpr ⟨rfl, h.isDigit⟩⟩

theorem natOfDigits_exponentDigits (n : Nat) : natOfDigits (exponentDigits n) = n := by
  rcases exponentDigits_eq n with heq | heq <;> rw [heq]
  · exact natOfDigits_toDigits n
  · rw [natOfDigits_cons, natOfDigits_toDigits, show digitValue '0' = 0 from rfl]
    omega

/-- An exponent as a layout writes it. -/
def exponentPart (leading : Int) : ExponentPart where
  mark := 'e'
  sign := [if leading < 0 then '-' else '+']
  digits := exponentDigits leading.natAbs
  mark_mem := ExponentPart.small_mark
  sign_mem := by split <;> simp
  isDigits := isDigits_exponentDigits _

theorem value_exponentPart (leading : Int) : (exponentPart leading).value = leading := by
  simp only [ExponentPart.value, exponentPart, natOfDigits_exponentDigits]
  by_cases h : leading < 0
  · rw [if_pos h, if_pos rfl]
    omega
  · rw [if_neg h, if_neg (by decide)]
    omega

/-! ## Places of the point -/

/-- Digits with a point among them. -/
theorem exists_writes_point (whole fraction : List Char) (hwhole : IsDigits whole)
    (hzero : whole.head? = some '0' → whole = ['0']) (hfraction : IsDigits fraction)
    (negative : Bool) :
    ∃ n, Writes negative (whole ++ '.' :: fraction)
      (natOfDigits (whole ++ fraction) * 10 ^ (-(fraction.length : Int))) n := by
  refine ⟨⟨negative, whole, some fraction, none, hwhole, hzero, ?_⟩, ?_, rfl, rfl, ?_⟩
  · rintro _ ⟨rfl⟩
    exact hfraction
  · simp [Literal.toText, Literal.sign, Literal.fractionText, Literal.exponentText]
  · simp [Literal.magnitude, Literal.fractionDigits, Literal.power]

theorem isDigits_zero : IsDigits ['0'] :=
  ⟨List.cons_ne_nil _ _, List.forall_mem_singleton.mpr rfl⟩

theorem isDigits_append {front back : List Char} (hfront : ∀ x ∈ front, x.isDigit = true)
    (hback : IsDigits back) : IsDigits (front ++ back) :=
  ⟨by simp [hback.ne_nil], fun x hx => (List.mem_append.mp hx).elim (hfront x) (hback.isDigit x)⟩

theorem isDigit_of_mem_replicate_zero {count : Nat} {x : Char}
    (h : x ∈ List.replicate count '0') : x.isDigit = true := by
  rw [List.eq_of_mem_replicate h]
  rfl

section

variable {c : Char} {rest : List Char} (hc : c.isDigit = true) (hne : c ≠ '0')
  (hrest : ∀ x ∈ rest, x.isDigit = true) (negative : Bool) (leading : Int)

include hc hrest

theorem isDigits_cons : IsDigits (c :: rest) :=
  ⟨List.cons_ne_nil _ _, List.forall_mem_cons.mpr ⟨hc, hrest⟩⟩

/-- One digit before the point and an exponent. -/
theorem exists_writes_exponent :
    ∃ n, Writes negative
      ([c] ++ (if rest.isEmpty then [] else '.' :: rest) ++ (exponentPart leading).toText)
      (natOfDigits (c :: rest) * 10 ^ (leading - rest.length)) n := by
  refine ⟨⟨negative, [c], if rest.isEmpty then none else some rest, some (exponentPart leading),
    ⟨List.cons_ne_nil _ _, by simpa using hc⟩, fun h => by simpa using h, ?_⟩, ?_⟩
  · intro digits hdigits
    cases rest with
    | nil => simp at hdigits
    | cons d tail =>
      obtain rfl : d :: tail = digits := by simpa using hdigits
      exact ⟨List.cons_ne_nil _ _, hrest⟩
  · cases rest <;>
      exact ⟨by simp [Literal.toText, Literal.sign, Literal.fractionText, Literal.exponentText],
        rfl, by simp [Literal.isInteger],
        by simp [Literal.magnitude, Literal.fractionDigits, Literal.power, value_exponentPart]⟩

/-- Zeros before the digits. -/
theorem exists_writes_below (hleading : leading < 0) :
    ∃ n, Writes negative ('0' :: '.' :: List.replicate ((-leading).toNat - 1) '0' ++ c :: rest)
      (natOfDigits (c :: rest) * 10 ^ (leading - rest.length)) n := by
  obtain ⟨n, hn⟩ :=
    exists_writes_point ['0'] (List.replicate ((-leading).toNat - 1) '0' ++ c :: rest)
    isDigits_zero (fun _ => rfl)
    (isDigits_append (fun _ => isDigit_of_mem_replicate_zero) (isDigits_cons hc hrest)) negative
  have hvalue : natOfDigits (['0'] ++ (List.replicate ((-leading).toNat - 1) '0' ++ c :: rest)) =
      natOfDigits (c :: rest) := by
    rw [natOfDigits_append, natOfDigits_append, natOfDigits_replicate_zero]
    simp [natOfDigits, ofDigits, digitValue]
  have hscale : -((List.replicate ((-leading).toNat - 1) '0' ++ c :: rest).length : Int) =
      leading - rest.length := by
    simp only [List.length_append, List.length_replicate, List.length_cons]
    omega
  rw [hvalue, hscale] at hn
  exact ⟨n, hn⟩

include hne in
/-- The point among the digits, or behind them. -/
theorem exists_writes_positional (whole : Nat) :
    ∃ n, Writes negative
      ((c :: rest).take (whole + 1) ++ List.replicate (whole + 1 - (c :: rest).length) '0' ++
        '.' :: (if ((c :: rest).drop (whole + 1)).isEmpty then ['0']
          else (c :: rest).drop (whole + 1)))
      (natOfDigits (c :: rest) * 10 ^ ((whole : Int) - rest.length)) n := by
  have hdigits := isDigits_cons hc hrest
  by_cases hlength : rest.length ≤ whole
  · have htake : (c :: rest).take (whole + 1) = c :: rest :=
      List.take_of_length_le (by simpa using hlength)
    have hdrop : (c :: rest).drop (whole + 1) = [] := by simpa using hlength
    have hpad : IsDigits (c :: rest ++ List.replicate (whole + 1 - (c :: rest).length) '0') :=
      ⟨List.cons_ne_nil _ _, fun x hx => (List.mem_append.mp hx).elim (hdigits.isDigit x)
        isDigit_of_mem_replicate_zero⟩
    obtain ⟨n, hn⟩ := exists_writes_point _ ['0'] hpad
      (fun h => absurd (by simpa using h) hne) isDigits_zero negative
    refine ⟨n, ?_⟩
    rw [htake, hdrop]
    convert hn using 1
    · simp
    · have hscale : (whole : Int) - rest.length = ((whole - rest.length : Nat) : Int) := by omega
      rw [natOfDigits_append, natOfDigits_append, natOfDigits_replicate_zero, hscale, zpow_natCast]
      simp [natOfDigits, ofDigits, digitValue]
  · have hpad : whole + 1 - (c :: rest).length = 0 := by
      rw [List.length_cons]
      omega
    have hfraction : IsDigits ((c :: rest).drop (whole + 1)) :=
      ⟨by simp; omega, fun x hx => hdigits.isDigit x (List.mem_of_mem_drop hx)⟩
    obtain ⟨n, hn⟩ := exists_writes_point ((c :: rest).take (whole + 1)) _
      ⟨by simp, fun x hx => hdigits.isDigit x (List.mem_of_mem_take hx)⟩
      (fun h => absurd (by simpa using h) hne) hfraction negative
    refine ⟨n, ?_⟩
    rw [hpad, List.replicate_zero, List.append_nil, if_neg (by simpa using hfraction.ne_nil)]
    convert hn using 1
    rw [List.take_append_drop, List.length_drop, List.length_cons]
    congr 2
    omega

include hne in
theorem exists_writes_place (layout : FloatLayout) :
    ∃ n, Writes negative (layout.place (c :: rest) leading)
      (natOfDigits (c :: rest) * 10 ^ (leading - rest.length)) n := by
  rw [FloatLayout.place]
  split
  · obtain ⟨n, hn⟩ := exists_writes_exponent hc hrest negative leading
    exact ⟨n, by simpa [ExponentPart.toText, exponentPart] using hn⟩
  · split
    · rename_i h
      obtain ⟨n, hn⟩ := exists_writes_below hc hrest negative leading h
      exact ⟨n, hn⟩
    · rename_i h
      obtain ⟨whole, rfl⟩ := Int.eq_ofNat_of_zero_le (not_lt.mp h)
      obtain ⟨n, hn⟩ := exists_writes_positional hc hne hrest negative whole
      exact ⟨n, hn⟩

end

/-! ## Values -/

namespace FloatLayout

open Binary64

variable (layout : FloatLayout)

/-- A positive value has a text in its rounding interval. -/
theorem exists_writes_magnitude {negative : Bool} {s : Nat} {e : Int} (hpos : 0 < s)
    (hs : (finite negative s e).Canonical) :
    ∃ n v, Writes negative (layout.magnitude s e) v n ∧ RoundsTo v s e := by
  obtain ⟨hdigits, hrounds⟩ := shortest_spec hpos hs
  obtain ⟨c, rest, hdrop, hne, hc, hrest⟩ := exists_dropTrailingZeros_eq_cons hdigits
  obtain ⟨count, hsplit⟩ :=
    exists_eq_dropTrailingZeros_append (Nat.toDigits 10 (shortest s e).digits)
  rw [hdrop] at hsplit
  have hvalue : (shortest s e).digits = natOfDigits (c :: rest) * 10 ^ count := by
    rw [← natOfDigits_toDigits (shortest s e).digits, hsplit, natOfDigits_append,
      natOfDigits_replicate_zero, List.length_replicate, Nat.add_zero]
  have hlength : (Nat.toDigits 10 (shortest s e).digits).length = rest.length + 1 + count := by
    rw [hsplit, List.length_append, List.length_replicate, List.length_cons]
  obtain ⟨n, hn⟩ := exists_writes_place hc hne hrest negative
    ((shortest s e).scale + (Nat.toDigits 10 (shortest s e).digits).length - 1) layout
  refine ⟨n, _, by simpa only [magnitude, if_neg hpos.ne', hdrop] using hn, ?_⟩
  convert hrounds using 1
  have hscale : (shortest s e).scale + (Nat.toDigits 10 (shortest s e).digits).length - 1 -
      rest.length = (shortest s e).scale + (count : Int) := by omega
  rw [hscale, hvalue, zpow_add₀ (by norm_num), zpow_natCast]
  push_cast
  ring

/-- Zero as it is written. -/
def zeroLiteral (negative : Bool) : Literal where
  negative := negative
  whole := ['0']
  fraction := some ['0']
  exponent := none
  whole_isDigits := isDigits_zero
  whole_zero := fun _ => rfl
  fraction_isDigits := by
    rintro _ ⟨rfl⟩
    exact isDigits_zero

/-- The text of a finite value is a number with a point or an exponent, which is read as the
value. -/
theorem exists_render_eq {negative : Bool} {s : Nat} {e : Int}
    (hs : (finite negative s e).Canonical) :
    ∃ n : Literal, n.toText = (layout.render (.finite negative s e)).toList ∧ n.isInteger = false ∧
      ofText n.toText = .finite negative s e := by
  have hrender : (layout.render (.finite negative s e)).toList =
      (if negative then ['-'] else []) ++ layout.magnitude s e := by
    rw [render, String.toList_ofList]
  rcases Nat.eq_zero_or_pos s with rfl | hpos
  · have he : e = minExponent := by
      cases hs with
      | finite _ _ _ _ hmin _ hfull =>
        refine le_antisymm (not_lt.mp fun hlt => ?_) hmin
        exact absurd (hfull hlt) (by decide)
    subst he
    refine ⟨zeroLiteral negative, ?_, rfl, ?_⟩
    · rw [hrender]
      cases negative <;> rfl
    · cases negative <;> rfl
  · obtain ⟨n, v, hn, hrounds⟩ := layout.exists_writes_magnitude hpos hs
    obtain rfl := hn.negative_eq
    refine ⟨n, by rw [hn.text_eq, hrender], hn.isInteger_eq, ?_⟩
    exact n.ofText_toText_of_roundsTo hpos hs (hn.magnitude_eq ▸ hrounds)

end FloatLayout

/-! ## Integers -/

theorem toList_toString_nat (n : Nat) : (toString n).toList = Nat.toDigits 10 n := by
  rw [Nat.toString_eq_ofList_toDigits, String.toList_ofList]

theorem toList_toString_int (n : Int) :
    (toString n).toList = (if n < 0 then ['-'] else []) ++ Nat.toDigits 10 n.natAbs := by
  cases n with
  | ofNat n => exact toList_toString_nat n
  | negSucc n =>
    have h : (toString (Int.negSucc n)).toList = ("-" ++ toString (n + 1)).toList := rfl
    rw [h, String.toList_append, toList_toString_nat, if_pos (Int.negSucc_lt_zero n)]
    rfl

/-- An integer as it is written. -/
def integerLiteral (n : Int) : Literal where
  negative := n < 0
  whole := Nat.toDigits 10 n.natAbs
  fraction := none
  exponent := none
  whole_isDigits := isDigits_toDigits n.natAbs
  whole_zero := by
    intro hzero
    rcases Nat.eq_zero_or_pos n.natAbs with hn | hn
    · rw [hn]
      rfl
    · obtain ⟨c, rest, heq, hne⟩ := exists_toDigits_eq_cons hn
      rw [heq] at hzero
      exact absurd (Option.some.inj hzero) hne
  fraction_isDigits := by simp

theorem toText_integerLiteral (n : Int) : (integerLiteral n).toText = (toString n).toList := by
  rw [toList_toString_int]
  simp [integerLiteral, Literal.toText, Literal.sign, Literal.fractionText, Literal.exponentText]

theorem intOfDigits_toText_integerLiteral (n : Int) :
    intOfDigits (integerLiteral n).toText = n := by
  rw [Literal.intOfDigits_toText rfl]
  simp only [integerLiteral, natOfDigits_toDigits, decide_eq_true_eq]
  split <;> omega

end AnnotatedShader.Number
