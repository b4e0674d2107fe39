import AnnotatedShader.Number.Shortest
import Mathlib.Data.List.TakeWhile
import Mathlib.Tactic.Linarith
import Mathlib.Tactic.Ring

set_option autoImplicit false

/-!
# Decimal digits

The number that digits denote, put together from parts of them, and the digits that a number is
written with.

Digits are the characters of a text here, with the greatest place first.  `natOfDigits_append` is
the lemma that the others come from: it tells the value of two runs of digits behind each other.
The written digits of a number denote it again (`natOfDigits_toDigits`) and have no zero in front
(`exists_toDigits_eq_cons`).  Zeros at the end are split off and counted, which is how a decimal
gets its exponent.
-/

namespace AnnotatedShader.Number

theorem natOfDigits_eq_ofDigitChars (digits : List Char) :
    natOfDigits digits = Nat.ofDigitChars 10 digits 0 := by
  rw [natOfDigits, ofDigits, List.foldl_map, Nat.ofDigitChars_eq_foldl]
  rfl

@[simp]
theorem natOfDigits_nil : natOfDigits [] = 0 := rfl

theorem natOfDigits_append (front back : List Char) :
    natOfDigits (front ++ back) = natOfDigits front * 10 ^ back.length + natOfDigits back := by
  simp only [natOfDigits_eq_ofDigitChars]
  rw [Nat.ofDigitChars_append, Nat.ofDigitChars_eq_ofDigitChars_zero, Nat.mul_comm]

theorem natOfDigits_cons (c : Char) (rest : List Char) :
    natOfDigits (c :: rest) = digitValue c * 10 ^ rest.length + natOfDigits rest := by
  have hsingle : natOfDigits [c] = digitValue c := by simp [natOfDigits, ofDigits]
  rw [← List.singleton_append, natOfDigits_append, hsingle]

/-- Zeros in front count for nothing. -/
theorem natOfDigits_dropWhile_zero (digits : List Char) :
    natOfDigits (digits.dropWhile (· == '0')) = natOfDigits digits := by
  induction digits with
  | nil => rfl
  | cons c rest ih =>
    rw [List.dropWhile_cons]
    split
    · rename_i hzero
      obtain rfl : c = '0' := by simpa using hzero
      rw [ih, natOfDigits_cons, show digitValue '0' = 0 from rfl, Nat.zero_mul, Nat.zero_add]
    · rfl

theorem natOfDigits_replicate_zero (count : Nat) : natOfDigits (List.replicate count '0') = 0 := by
  rw [natOfDigits_eq_ofDigitChars, Nat.ofDigitChars_replicate_zero, Nat.mul_zero]

theorem natOfDigits_toDigits (n : Nat) : natOfDigits (Nat.toDigits 10 n) = n := by
  rw [natOfDigits_eq_ofDigitChars, Nat.ofDigitChars_ten_toDigits]

/-! ## Bounds -/

theorem digitValue_lt {c : Char} (h : c.isDigit = true) : digitValue c < 10 := by
  simp only [Char.isDigit, Bool.and_eq_true, decide_eq_true_eq] at h
  have hle : c.toNat ≤ '9'.toNat := h.2
  have : '9'.toNat = '0'.toNat + 9 := rfl
  rw [digitValue]
  omega

theorem digitValue_pos {c : Char} (h : c.isDigit = true) (hne : c ≠ '0') : 0 < digitValue c := by
  simp only [Char.isDigit, Bool.and_eq_true, decide_eq_true_eq] at h
  have hle : '0'.toNat ≤ c.toNat := h.1
  have : '0'.toNat ≠ c.toNat := fun heq => hne (Char.toNat_inj.mp heq.symm)
  rw [digitValue]
  omega

theorem natOfDigits_lt {digits : List Char} (h : ∀ c ∈ digits, c.isDigit = true) :
    natOfDigits digits < 10 ^ digits.length := by
  induction digits with
  | nil => decide
  | cons c rest ih =>
    have hrest := ih fun x hx => h x (List.mem_cons_of_mem c hx)
    have hdigit := Nat.mul_le_mul_right (10 ^ rest.length)
      (Nat.succ_le_of_lt (digitValue_lt (h c List.mem_cons_self)))
    rw [natOfDigits_cons, List.length_cons, Nat.pow_succ]
    rw [Nat.succ_mul] at hdigit
    omega

theorem le_natOfDigits {c : Char} (rest : List Char) (h : c.isDigit = true) (hne : c ≠ '0') :
    10 ^ rest.length ≤ natOfDigits (c :: rest) := by
  have hdigit := Nat.mul_le_mul_right (10 ^ rest.length) (Nat.succ_le_of_lt (digitValue_pos h hne))
  rw [natOfDigits_cons]
  omega

/-! ## Written numbers -/

theorem isDigit_of_mem_toDigits {n : Nat} {c : Char} (h : c ∈ Nat.toDigits 10 n) :
    c.isDigit = true :=
  Nat.isDigit_of_mem_toDigits (by decide) (by decide) h

/-- A positive number is written without zeros in front. -/
theorem exists_toDigits_eq_cons {n : Nat} (h : 0 < n) :
    ∃ c rest, Nat.toDigits 10 n = c :: rest ∧ c ≠ '0' := by
  induction n using Nat.strong_induction_on with
  | _ n ih =>
    rw [Nat.toDigits_eq_if (by decide)]
    split
    · exact ⟨_, [], rfl, by simpa using h.ne'⟩
    · rename_i hlarge
      obtain ⟨c, rest, heq, hne⟩ := ih (n / 10) (by omega) (by omega)
      exact ⟨c, rest ++ [(n % 10).digitChar], by rw [heq, List.cons_append], hne⟩

/-- Zeros at the end only shift a number. -/
theorem exists_eq_dropTrailingZeros_append (digits : List Char) :
    ∃ count, digits = dropTrailingZeros digits ++ List.replicate count '0' := by
  refine ⟨(digits.reverse.takeWhile (· == '0')).length, ?_⟩
  have hzeros : digits.reverse.takeWhile (· == '0') =
      List.replicate (digits.reverse.takeWhile (· == '0')).length '0' := by
    refine List.eq_replicate_of_mem fun c hc => ?_
    simpa using List.mem_takeWhile_imp hc
  have hsplit := congrArg List.reverse
    (List.takeWhile_append_dropWhile (p := (· == '0')) (l := digits.reverse))
  rw [List.reverse_reverse, List.reverse_append] at hsplit
  rw [dropTrailingZeros, ← List.reverse_replicate, ← hzeros, hsplit]

theorem exists_dropTrailingZeros_eq_cons {n : Nat} (h : 0 < n) :
    ∃ c rest, dropTrailingZeros (Nat.toDigits 10 n) = c :: rest ∧ c ≠ '0' ∧ c.isDigit = true ∧
      ∀ x ∈ rest, x.isDigit = true := by
  obtain ⟨c, rest, heq, hne⟩ := exists_toDigits_eq_cons h
  obtain ⟨count, hsplit⟩ := exists_eq_dropTrailingZeros_append (Nat.toDigits 10 n)
  cases hdrop : dropTrailingZeros (Nat.toDigits 10 n) with
  | nil =>
    rw [hdrop, List.nil_append, heq] at hsplit
    have hmem : c ∈ List.replicate count '0' := hsplit ▸ List.mem_cons_self
    exact absurd (List.eq_of_mem_replicate hmem) hne
  | cons d tail =>
    rw [hdrop, heq, List.cons_append] at hsplit
    obtain ⟨rfl, hrest⟩ := List.cons.inj hsplit
    have hdigits : ∀ x ∈ c :: rest, x.isDigit = true := fun x hx =>
      isDigit_of_mem_toDigits (heq ▸ hx)
    refine ⟨c, tail, rfl, hne, hdigits c List.mem_cons_self, fun x hx => hdigits x ?_⟩
    rw [hrest]
    exact List.mem_cons_of_mem _ (List.mem_append_left _ hx)

end AnnotatedShader.Number
