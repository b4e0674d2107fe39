import AnnotatedShader.Number.Binary64
import Mathlib.Algebra.Order.Field.Rat
import Mathlib.Algebra.Order.Field.Power
import Mathlib.Tactic.Linarith
import Mathlib.Tactic.Positivity
import Mathlib.Tactic.Ring
import Mathlib.Tactic.FieldSimp
import Mathlib.Tactic.NormNum

set_option autoImplicit false

/-!
# Rounding to binary64 values

A positive quotient is rounded to a significand of 53 bits, or of fewer at the least exponent.  So
the values that rounding gives are canonical (`ofQuotient_canonical`), and every quotient in the
rounding interval of a canonical value is rounded to it (`ofQuotient_eq`).

The exponent is found by scaling: it is the one at which the quotient lies between the bounds of a
significand, unless the least exponent stops it (`Scaled`).  Bounds are compared as rational numbers
with powers of two that may have negative exponents, so most of the lemmas move a power from one
side to the other.  `RoundsTo` is the rounding interval of a value, closed where its significand is
even, and halved below where the exponent changes.

The last section is about decimals, which are quotients by powers of ten, and those that are too
great or too small to need a division.
-/

namespace AnnotatedShader.Number

/-! ## Nearest quotients -/

theorem divideNearest_dist (num : Nat) {den : Nat} (hden : 0 < den) :
    |(divideNearest num den : ℚ) - num / den| ≤ 1 / 2 := by
  have hd : (0 : ℚ) < den := by exact_mod_cast hden
  have hdiv := Nat.div_add_mod num den
  have hmod := Nat.mod_lt num hden
  have hbounds : 2 * (divideNearest num den * den) ≤ 2 * num + den ∧
      2 * num ≤ 2 * (divideNearest num den * den) + den := by
    rw [divideNearest]
    generalize num / den = k at *
    generalize num % den = m at *
    have hcomm : k * den = den * k := Nat.mul_comm k den
    have hsucc : (k + 1) * den = den * k + den := by rw [Nat.add_mul, Nat.one_mul, hcomm]
    split_ifs <;> simp only [hcomm, hsucc] <;> omega
  obtain ⟨hlow, hhigh⟩ := hbounds
  have hlow : 2 * ((divideNearest num den : ℚ) * den) ≤ 2 * num + den := by exact_mod_cast hlow
  have hhigh : 2 * (num : ℚ) ≤ 2 * (divideNearest num den * den) + den := by exact_mod_cast hhigh
  rw [abs_le]
  constructor
  · rw [neg_le_sub_iff_le_add, div_le_iff₀ hd]
    linarith
  · rw [sub_le_iff_le_add, ← sub_le_iff_le_add', le_div_iff₀ hd]
    linarith

/-- A number no further than a half from a quotient is the nearest one, unless it is odd and just a
half away. -/
theorem divideNearest_eq {num den s : Nat} (hden : 0 < den) (hlow : (s : ℚ) - 1 / 2 ≤ num / den)
    (hhigh : (num : ℚ) / den ≤ s + 1 / 2)
    (hodd : s % 2 = 1 → (s : ℚ) - 1 / 2 < num / den ∧ (num : ℚ) / den < s + 1 / 2) :
    divideNearest num den = s := by
  have hd : (0 : ℚ) < den := by exact_mod_cast hden
  have hlow : 2 * (s * den) ≤ 2 * num + den := by
    rw [le_div_iff₀ hd] at hlow
    exact_mod_cast (by linarith : 2 * ((s : ℚ) * den) ≤ 2 * num + den)
  have hhigh : 2 * num ≤ 2 * (s * den) + den := by
    rw [div_le_iff₀ hd] at hhigh
    exact_mod_cast (by linarith : 2 * (num : ℚ) ≤ 2 * (s * den) + den)
  have hodd : s % 2 = 1 → 2 * (s * den) < 2 * num + den ∧ 2 * num < 2 * (s * den) + den := by
    intro h
    obtain ⟨h₁, h₂⟩ := hodd h
    rw [lt_div_iff₀ hd] at h₁
    rw [div_lt_iff₀ hd] at h₂
    exact ⟨by exact_mod_cast (by linarith : 2 * ((s : ℚ) * den) < 2 * num + den),
      by exact_mod_cast (by linarith : 2 * (num : ℚ) < 2 * (s * den) + den)⟩
  have hdiv := Nat.div_add_mod num den
  have hmod := Nat.mod_lt num hden
  rw [divideNearest]
  generalize num / den = k at *
  generalize num % den = m at *
  have hk : k ≤ s := by
    by_contra hlt
    have := Nat.mul_le_mul_right den (show s + 1 ≤ k by omega)
    rw [Nat.add_mul, Nat.mul_comm k] at this
    omega
  have hk' : s ≤ k + 1 := by
    by_contra hlt
    have := Nat.mul_le_mul_right den (show k + 2 ≤ s by omega)
    rw [Nat.add_mul, Nat.mul_comm k] at this
    omega
  rcases Nat.lt_or_ge k s with hlt | hge
  · obtain rfl : s = k + 1 := by omega
    rw [Nat.add_mul, Nat.mul_comm k] at hlow hhigh hodd
    split_ifs <;> omega
  · obtain rfl : s = k := by omega
    rw [Nat.mul_comm s] at hlow hhigh hodd
    split_ifs <;> omega

namespace Binary64

/-! ## Exponents -/

theorem scaleDown_den_pos (num : Nat) {den : Nat} (hden : 0 < den) (e : Int) :
    0 < (scaleDown num den e).2 := by
  rw [scaleDown]
  split
  · exact Nat.mul_pos hden (Nat.pow_pos (by decide))
  · exact hden

theorem scaleDown_eq (num : Nat) {den : Nat} (hden : 0 < den) (e : Int) :
    ((scaleDown num den e).1 : ℚ) / (scaleDown num den e).2 = num / den * 2 ^ (-e) := by
  have hd : (den : ℚ) ≠ 0 := by exact_mod_cast hden.ne'
  rw [scaleDown]
  split
  · rename_i he
    obtain ⟨k, rfl⟩ := Int.eq_ofNat_of_zero_le he
    have hpow : ((Nat.pow 2 k : Nat) : ℚ) = 2 ^ k := by exact_mod_cast Nat.cast_pow 2 k
    simp only [Int.toNat_natCast]
    rw [Nat.cast_mul, hpow, zpow_neg, zpow_natCast]
    field_simp
  · rename_i he
    obtain ⟨k, hk⟩ := Int.eq_ofNat_of_zero_le (show 0 ≤ -e by omega)
    have hpow : ((Nat.pow 2 k : Nat) : ℚ) = 2 ^ k := by exact_mod_cast Nat.cast_pow 2 k
    rw [hk]
    simp only [Int.toNat_natCast]
    rw [Nat.cast_mul, hpow, zpow_natCast]
    ring

theorem div_lt_iff_quotient_lt {num den bound : Nat} (hden : 0 < den) :
    num / den < bound ↔ (num : ℚ) / den < bound := by
  rw [Nat.div_lt_iff_lt_mul hden, div_lt_iff₀ (by exact_mod_cast hden)]
  exact_mod_cast Iff.rfl

/-- What the exponent of a positive quotient leaves before the point. -/
structure Scaled (v : ℚ) (e : Int) : Prop where
  min_le : minExponent ≤ e
  lt_bound : v * 2 ^ (-e) < significandBound
  le_of_lt : minExponent < e → ((significandBound / 2 : Nat) : ℚ) ≤ v * 2 ^ (-e)

theorem cast_significandBound :
    (significandBound : ℚ) = 2 * ((significandBound / 2 : Nat) : ℚ) := by
  exact_mod_cast (show significandBound = 2 * (significandBound / 2) by decide)

theorem one_le_half_significandBound : (1 : ℚ) ≤ ((significandBound / 2 : Nat) : ℚ) := by
  exact_mod_cast (show 1 ≤ significandBound / 2 by decide)

theorem zpow_eq_significandBound : (2 : ℚ) ^ (53 : Int) = significandBound := by
  rw [significandBound]
  norm_num

theorem log2_bounds {num den : Nat} (hnum : 0 < num) (hden : 0 < den) :
    (2 : ℚ) ^ ((Nat.log2 num : Int) - Nat.log2 den - 1) < num / den ∧
      (num : ℚ) / den < 2 ^ ((Nat.log2 num : Int) - Nat.log2 den + 1) := by
  have hd : (0 : ℚ) < den := by exact_mod_cast hden
  have hnumLow : (2 : ℚ) ^ (Nat.log2 num) ≤ num := by exact_mod_cast Nat.log2_self_le hnum.ne'
  have hnumHigh : (num : ℚ) < 2 ^ (Nat.log2 num + 1) := by exact_mod_cast Nat.lt_log2_self
  have hdenLow : (2 : ℚ) ^ (Nat.log2 den) ≤ den := by exact_mod_cast Nat.log2_self_le hden.ne'
  have hdenHigh : (den : ℚ) < 2 ^ (Nat.log2 den + 1) := by exact_mod_cast Nat.lt_log2_self
  generalize Nat.log2 num = a at *
  generalize Nat.log2 den = b at *
  have hlow : (2 : ℚ) ^ ((a : Int) - b - 1) * 2 ^ (b + 1) = 2 ^ a := by
    rw [← zpow_natCast, ← zpow_natCast, ← zpow_add₀ two_ne_zero]
    congr 1
    push_cast
    ring
  have hhigh : (2 : ℚ) ^ ((a : Int) - b + 1) * 2 ^ b = 2 ^ (a + 1) := by
    rw [← zpow_natCast, ← zpow_natCast, ← zpow_add₀ two_ne_zero]
    congr 1
    push_cast
    ring
  constructor
  · rw [lt_div_iff₀ hd]
    calc (2 : ℚ) ^ ((a : Int) - b - 1) * den
        < 2 ^ ((a : Int) - b - 1) * 2 ^ (b + 1) := by gcongr
      _ = 2 ^ a := hlow
      _ ≤ num := hnumLow
  · rw [div_lt_iff₀ hd]
    calc (num : ℚ) < 2 ^ (a + 1) := hnumHigh
      _ = 2 ^ ((a : Int) - b + 1) * 2 ^ b := hhigh.symm
      _ ≤ 2 ^ ((a : Int) - b + 1) * den := by gcongr

/-- Scaling by a power of two shifts a bound that is one. -/
theorem zpow_lt_mul_zpow_iff {v : ℚ} {k e : Int} :
    (2 : ℚ) ^ (k - e) < v * 2 ^ (-e) ↔ 2 ^ k < v := by
  rw [sub_eq_add_neg, zpow_add₀ two_ne_zero, mul_lt_mul_iff_left₀ (zpow_pos two_pos _)]

theorem mul_zpow_lt_zpow_iff {v : ℚ} {k e : Int} :
    v * 2 ^ (-e) < (2 : ℚ) ^ (k - e) ↔ v < 2 ^ k := by
  rw [sub_eq_add_neg, zpow_add₀ two_ne_zero, mul_lt_mul_iff_left₀ (zpow_pos two_pos _)]

theorem mul_zpow_succ (v : ℚ) (e : Int) : v * 2 ^ (-e) = v * 2 ^ (-(e + 1)) * 2 := by
  rw [neg_add, zpow_add₀ two_ne_zero, zpow_neg_one]
  ring

theorem exponentFor_scaled {num den : Nat} (hnum : 0 < num) (hden : 0 < den) :
    Scaled ((num : ℚ) / den) (exponentFor num den) := by
  obtain ⟨hlow, hhigh⟩ := log2_bounds hnum hden
  rw [exponentFor]
  generalize (Nat.log2 num : Int) - Nat.log2 den = c at *
  dsimp only
  have hguess : minExponent ≤ max minExponent (c - 53) := le_max_left ..
  have hc : c - 53 ≤ max minExponent (c - 53) := le_max_right ..
  have hmax : minExponent < max minExponent (c - 53) → max minExponent (c - 53) = c - 53 := by
    intro h
    exact max_eq_right (lt_max_iff.mp h |>.resolve_left (lt_irrefl _)).le
  generalize max minExponent (c - 53) = guess at *
  have hfloor : (scaleDown num den guess).1 / (scaleDown num den guess).2 < significandBound ↔ _ :=
    div_lt_iff_quotient_lt (scaleDown_den_pos num hden guess)
  rw [scaleDown_eq num hden] at hfloor
  generalize (num : ℚ) / den = v at *
  have hhalf := cast_significandBound
  -- The guess leaves at most 54 bits, and at least 53 if it is above the least exponent.
  have hwide : v * 2 ^ (-guess) < 2 * significandBound := by
    rw [← zpow_eq_significandBound, ← zpow_one_add₀ two_ne_zero]
    exact lt_of_lt_of_le (mul_zpow_lt_zpow_iff.mpr hhigh)
      (zpow_le_zpow_right₀ one_le_two (by omega))
  split
  · rename_i h
    refine ⟨hguess, hfloor.mp h, fun habove => le_of_lt ?_⟩
    have hshift := zpow_lt_mul_zpow_iff (e := c - 53) |>.mpr hlow
    have hfull : (2 : ℚ) * 2 ^ (c - 1 - (c - 53)) = significandBound := by
      rw [← zpow_eq_significandBound, ← zpow_one_add₀ two_ne_zero]
      congr 1
      ring
    rw [hmax habove]
    linarith
  · rename_i h
    have h := le_of_not_gt (mt hfloor.mpr h)
    rw [mul_zpow_succ] at h hwide
    exact ⟨by omega, by linarith, fun _ => by linarith⟩

/-! ## Canonical values -/

/-- A value in its one form: 53 bits, or fewer at the least exponent. -/
inductive Canonical : Binary64 → Prop
  | infinite (negative : Bool) : Canonical (.infinite negative)
  | finite (negative : Bool) (significand : Nat) (exponent : Int)
    (hbound : significand < significandBound) (hmin : minExponent ≤ exponent)
    (hmax : exponent ≤ maxExponent)
    (hfull : minExponent < exponent → significandBound / 2 ≤ significand) :
    Canonical (.finite negative significand exponent)

theorem canonical_zero (negative : Bool) : (zero negative).Canonical :=
  .finite negative 0 minExponent (by decide) (le_refl _) (by decide) fun h => absurd h (lt_irrefl _)

theorem divideNearest_le {num den bound : Nat} (hden : 0 < den) (h : (num : ℚ) / den < bound) :
    divideNearest num den ≤ bound := by
  have hdist := abs_le.mp (divideNearest_dist num hden)
  have : (divideNearest num den : ℚ) < (bound + 1 : Nat) := by
    push_cast
    linarith [hdist.2]
  exact Nat.lt_succ_iff.mp (by exact_mod_cast this)

theorem le_divideNearest {num den bound : Nat} (hden : 0 < den) (h : (bound : ℚ) ≤ num / den) :
    bound ≤ divideNearest num den := by
  have hdist := abs_le.mp (divideNearest_dist num hden)
  have : ((bound : Nat) : ℚ) < (divideNearest num den + 1 : Nat) := by
    push_cast
    linarith [hdist.1]
  exact Nat.lt_succ_iff.mp (by exact_mod_cast this)

theorem ofQuotient_canonical (negative : Bool) {num den : Nat} (hnum : 0 < num) (hden : 0 < den) :
    (ofQuotient negative num den).Canonical := by
  have hscaled := exponentFor_scaled hnum hden
  rw [ofQuotient]
  generalize exponentFor num den = e at *
  dsimp only
  have hpos := scaleDown_den_pos num hden e
  have hle : divideNearest (scaleDown num den e).1 (scaleDown num den e).2 ≤ significandBound := by
    refine divideNearest_le hpos ?_
    rw [scaleDown_eq num hden]
    exact hscaled.lt_bound
  have hfull : minExponent < e → significandBound / 2 ≤
      divideNearest (scaleDown num den e).1 (scaleDown num den e).2 := by
    intro h
    refine le_divideNearest hpos ?_
    rw [scaleDown_eq num hden]
    exact hscaled.le_of_lt h
  generalize divideNearest (scaleDown num den e).1 (scaleDown num den e).2 = s at *
  have hmin := hscaled.min_le
  split
  · dsimp only
    split
    · exact .infinite _
    · rename_i hmax
      exact .finite _ _ _ (by decide) (by omega) (not_lt.mp hmax) fun _ => le_refl _
  · rename_i hne
    dsimp only
    split
    · exact .infinite _
    · rename_i hmax
      exact .finite _ _ _ (by omega) hmin (not_lt.mp hmax) hfull

theorem ofDecimal_canonical (negative : Bool) (digits count : Nat) (scale : Int) :
    (ofDecimal negative digits count scale).Canonical := by
  unfold ofDecimal
  split
  · exact canonical_zero negative
  · rename_i hne
    have hdigits := Nat.pos_of_ne_zero hne
    split
    · exact .infinite _
    split
    · exact canonical_zero negative
    split
    · exact ofQuotient_canonical _ (Nat.mul_pos hdigits (Nat.pow_pos (by decide))) one_pos
    · exact ofQuotient_canonical _ hdigits (Nat.pow_pos (by decide))

theorem ofText_canonical (text : List Char) : (ofText text).Canonical := ofDecimal_canonical ..

/-! ## Rounding intervals -/

/-- The distance of the lower end of a rounding interval, in units of the last place.  Below a power
of two the values lie twice as dense. -/
def gapBelow (s : Nat) (e : Int) : ℚ :=
  if s = significandBound / 2 ∧ minExponent < e then 1 / 4 else 1 / 2

/-- A number is in the rounding interval of a value.  The ends count if the significand is even. -/
structure RoundsTo (v : ℚ) (s : Nat) (e : Int) : Prop where
  low : (s - gapBelow s e) * 2 ^ e ≤ v
  high : v ≤ (s + 1 / 2) * 2 ^ e
  odd : s % 2 = 1 → (s - gapBelow s e) * 2 ^ e < v ∧ v < (s + 1 / 2) * 2 ^ e

theorem gapBelow_le (s : Nat) (e : Int) : gapBelow s e ≤ 1 / 2 := by
  rw [gapBelow]
  split <;> norm_num

theorem RoundsTo.pos {v : ℚ} {s : Nat} {e : Int} (h : RoundsTo v s e) (hpos : 0 < s) : 0 < v := by
  have hone : (1 : ℚ) ≤ s := by exact_mod_cast hpos
  have hgap := gapBelow_le s e
  have hlow := mul_pos (show (0 : ℚ) < s - gapBelow s e by linarith) (zpow_pos (two_pos (α := ℚ)) e)
  exact hlow.trans_le h.low

theorem le_mul_zpow_iff {a v : ℚ} {e : Int} : a * 2 ^ e ≤ v ↔ a ≤ v * 2 ^ (-e) := by
  rw [zpow_neg, ← div_eq_mul_inv, le_div_iff₀ (zpow_pos two_pos e)]

theorem mul_zpow_le_iff {a v : ℚ} {e : Int} : v ≤ a * 2 ^ e ↔ v * 2 ^ (-e) ≤ a := by
  rw [zpow_neg, ← div_eq_mul_inv, div_le_iff₀ (zpow_pos two_pos e)]

theorem lt_mul_zpow_iff {a v : ℚ} {e : Int} : a * 2 ^ e < v ↔ a < v * 2 ^ (-e) := by
  rw [zpow_neg, ← div_eq_mul_inv, lt_div_iff₀ (zpow_pos two_pos e)]

theorem mul_zpow_lt_iff {a v : ℚ} {e : Int} : v < a * 2 ^ e ↔ v * 2 ^ (-e) < a := by
  rw [zpow_neg, ← div_eq_mul_inv, div_lt_iff₀ (zpow_pos two_pos e)]

/-- In units of the last place. -/
theorem RoundsTo.scaled {v : ℚ} {s : Nat} {e : Int} (h : RoundsTo v s e) :
    s - gapBelow s e ≤ v * 2 ^ (-e) ∧ v * 2 ^ (-e) ≤ s + 1 / 2 ∧
      (s % 2 = 1 → s - gapBelow s e < v * 2 ^ (-e) ∧ v * 2 ^ (-e) < s + 1 / 2) :=
  ⟨le_mul_zpow_iff.mp h.low, mul_zpow_le_iff.mp h.high, fun hodd =>
    ⟨lt_mul_zpow_iff.mp (h.odd hodd).1, mul_zpow_lt_iff.mp (h.odd hodd).2⟩⟩

theorem mul_zpow_rescale (v : ℚ) (e e' : Int) : v * 2 ^ (-e') = v * 2 ^ (-e) * 2 ^ (e - e') := by
  rw [mul_assoc, ← zpow_add₀ two_ne_zero]
  congr 2
  ring

/-- A number in the interval of a canonical value is scaled with the exponent of the value, or it
lies just below a power of two. -/
theorem RoundsTo.exponent_eq {negative : Bool} {v : ℚ} {s : Nat} {e e' : Int}
    (hs : (finite negative s e).Canonical) (h : RoundsTo v s e) (h' : Scaled v e') :
    e' = e ∨ (s = significandBound / 2 ∧ minExponent < e ∧ e' = e - 1) := by
  obtain ⟨hlow, hhigh, _⟩ := h.scaled
  obtain ⟨hmin', hlt, hfull'⟩ := h'
  have hgap := gapBelow_le s e
  have htwice := cast_significandBound
  have hone := one_le_half_significandBound
  rw [mul_zpow_rescale v e e'] at hlt hfull'
  generalize v * 2 ^ (-e) = w at *
  cases hs with | finite _ _ _ hbound hmin hmax hfull => ?_
  have hs : (s : ℚ) + 1 ≤ significandBound := by exact_mod_cast hbound
  rcases lt_trichotomy e' e with hless | rfl | hmore
  · right
    have habove : minExponent < e := lt_of_le_of_lt hmin' hless
    have hhalf : ((significandBound / 2 : Nat) : ℚ) ≤ s := by exact_mod_cast hfull habove
    have hw : 0 ≤ w := by linarith
    have htwo : (2 : ℚ) ^ (1 : Int) ≤ 2 ^ (e - e') := zpow_le_zpow_right₀ one_le_two (by omega)
    have hscaled := mul_le_mul_of_nonneg_left htwo hw
    rw [zpow_one] at hscaled
    have hsmall : (s : ℚ) < ((significandBound / 2 : Nat) : ℚ) + 1 := by linarith
    have heq : s = significandBound / 2 :=
      le_antisymm (Nat.lt_succ_iff.mp (by exact_mod_cast hsmall)) (hfull habove)
    refine ⟨heq, habove, ?_⟩
    by_contra hne
    have hfour : (2 : ℚ) ^ (2 : Int) ≤ 2 ^ (e - e') := zpow_le_zpow_right₀ one_le_two (by omega)
    have hscaled := mul_le_mul_of_nonneg_left hfour hw
    norm_num at hscaled
    linarith
  · exact .inl rfl
  · exfalso
    have hfull' := hfull' (lt_of_le_of_lt hmin hmore)
    have hhalf : (2 : ℚ) ^ (e - e') ≤ 2 ^ (-1 : Int) := zpow_le_zpow_right₀ one_le_two (by omega)
    have hw : 0 ≤ w := by
      by_contra hneg
      have := mul_nonpos_of_nonpos_of_nonneg (not_le.mp hneg).le
        (zpow_pos (two_pos (α := ℚ)) (e - e')).le
      linarith
    have hscaled := mul_le_mul_of_nonneg_left hhalf hw
    rw [zpow_neg_one] at hscaled
    linarith

/-- Every number in the rounding interval of a canonical value is rounded to this value. -/
theorem ofQuotient_eq {negative : Bool} {num den s : Nat} {e : Int} (hnum : 0 < num)
    (hden : 0 < den) (hs : (finite negative s e).Canonical)
    (h : RoundsTo ((num : ℚ) / den) s e) :
    ofQuotient negative num den = .finite negative s e := by
  have hscaled := exponentFor_scaled hnum hden
  have hexponent := h.exponent_eq hs hscaled
  obtain ⟨hlow, hhigh, hodd⟩ := h.scaled
  have hgap := gapBelow_le s e
  rw [ofQuotient]
  generalize exponentFor num den = e' at *
  dsimp only
  have hpos := scaleDown_den_pos num hden e'
  have hvalue := scaleDown_eq num hden e'
  cases hs with | finite _ _ _ hbound hmin hmax hfull => ?_
  rcases hexponent with rfl | ⟨hhalf, habove, rfl⟩
  · have hnearest : divideNearest (scaleDown num den e').1 (scaleDown num den e').2 = s := by
      refine divideNearest_eq hpos ?_ ?_ fun h => ?_
      · rw [hvalue]
        linarith
      · rw [hvalue]
        exact hhigh
      · rw [hvalue]
        obtain ⟨h₁, h₂⟩ := hodd h
        exact ⟨by linarith, h₂⟩
    rw [hnearest, if_neg hbound.ne]
    dsimp only
    rw [if_neg (not_lt.mpr hmax)]
  · -- Just below a power of two the quotient is rounded up to it.
    have hnearest : divideNearest (scaleDown num den (e - 1)).1 (scaleDown num den (e - 1)).2 =
        significandBound := by
      have hlt := hscaled.lt_bound
      have hquarter : gapBelow s e = 1 / 4 := by rw [gapBelow, if_pos ⟨hhalf, habove⟩]
      have htwice := cast_significandBound
      rw [← hhalf] at htwice
      rw [hquarter, mul_zpow_rescale _ (e - 1) e, sub_sub_cancel_left, zpow_neg_one] at hlow
      refine divideNearest_eq hpos ?_ ?_ fun hodd => absurd hodd (by decide)
      · rw [hvalue]
        linarith
      · rw [hvalue]
        linarith
    rw [hnearest, if_pos rfl, ← hhalf]
    dsimp only
    rw [sub_add_cancel, if_neg (not_lt.mpr hmax)]

/-! ## Decimals -/

theorem RoundsTo.lt_pow_ten {negative : Bool} {v : ℚ} {s : Nat} {e : Int}
    (hs : (finite negative s e).Canonical) (h : RoundsTo v s e) : v < 10 ^ (309 : Int) := by
  have hbig : (2 : ℚ) ^ (1024 : Int) < 10 ^ (309 : Int) := by
    have hnat : (2 : Nat) ^ 1024 < 10 ^ 309 := by decide +kernel
    rw [show (1024 : Int) = (1024 : Nat) from rfl, show (309 : Int) = (309 : Nat) from rfl,
      zpow_natCast, zpow_natCast]
    exact_mod_cast hnat
  cases hs with | finite _ _ _ hbound hmin hmax hfull => ?_
  have hs : (s : ℚ) + 1 ≤ significandBound := by exact_mod_cast hbound
  have hpow := zpow_pos (two_pos (α := ℚ)) e
  calc v ≤ (s + 1 / 2) * 2 ^ e := h.high
    _ ≤ significandBound * 2 ^ e := by
      gcongr
      linarith
    _ ≤ significandBound * 2 ^ maxExponent :=
      mul_le_mul_of_nonneg_left (zpow_le_zpow_right₀ one_le_two hmax) (Nat.cast_nonneg _)
    _ = 2 ^ (1024 : Int) := by
      rw [← zpow_eq_significandBound, ← zpow_add₀ two_ne_zero]
      rfl
    _ < 10 ^ (309 : Int) := hbig

theorem RoundsTo.pow_ten_lt {negative : Bool} {v : ℚ} {s : Nat} {e : Int}
    (hs : (finite negative s e).Canonical) (hpos : 0 < s) (h : RoundsTo v s e) :
    10 ^ (-324 : Int) < v := by
  have hsmall : (10 : ℚ) ^ (-324 : Int) < 2 ^ (-1075 : Int) := by
    rw [zpow_neg, zpow_neg]
    gcongr
    have hnat : (2 : Nat) ^ 1075 < 10 ^ 324 := by decide +kernel
    rw [show (1075 : Int) = (1075 : Nat) from rfl, show (324 : Int) = (324 : Nat) from rfl,
      zpow_natCast, zpow_natCast]
    exact_mod_cast hnat
  cases hs with | finite _ _ _ hbound hmin hmax hfull => ?_
  have hone : (1 : ℚ) ≤ s := by exact_mod_cast hpos
  have hgap := gapBelow_le s e
  calc (10 : ℚ) ^ (-324 : Int) < 2 ^ (-1075 : Int) := hsmall
    _ = 1 / 2 * 2 ^ minExponent := by
      rw [one_div, ← zpow_neg_one, ← zpow_add₀ two_ne_zero]
      rfl
    _ ≤ (s - gapBelow s e) * 2 ^ e :=
      mul_le_mul (by linarith) (zpow_le_zpow_right₀ one_le_two hmin) (zpow_pos two_pos _).le
        (by linarith)
    _ ≤ v := h.low

/-- A decimal in the rounding interval of a canonical value is read as this value. -/
theorem ofDecimal_eq {negative : Bool} {digits count s : Nat} {scale e : Int}
    (hlow : 10 ^ count ≤ 10 * digits) (hhigh : digits < 10 ^ count) (hpos : 0 < s)
    (hs : (finite negative s e).Canonical) (h : RoundsTo ((digits : ℚ) * 10 ^ scale) s e) :
    ofDecimal negative digits count scale = .finite negative s e := by
  have hten : (10 : ℚ) ≠ 0 := by norm_num
  have hdigits : 0 < digits := by
    have := Nat.pow_pos (n := count) (show 0 < 10 by decide)
    omega
  have hlow : (10 : ℚ) ^ (count : Int) ≤ 10 * digits := by exact_mod_cast hlow
  have hhigh : (digits : ℚ) < 10 ^ (count : Int) := by exact_mod_cast hhigh
  have hpow := zpow_pos (show (0 : ℚ) < 10 by norm_num) scale
  have hnotLarge : ¬ 309 < (count : Int) + scale := by
    intro hlarge
    have hle : (10 : ℚ) ^ (310 : Int) ≤ 10 ^ ((count : Int) + scale) :=
      zpow_le_zpow_right₀ (by norm_num) (by omega)
    have hstep : (10 : ℚ) ^ (310 : Int) = 10 * 10 ^ (309 : Int) := zpow_one_add₀ hten 309
    rw [zpow_add₀ hten, hstep] at hle
    have := mul_le_mul_of_nonneg_right hlow hpow.le
    have hlt := h.lt_pow_ten hs
    generalize (10 : ℚ) ^ (309 : Int) = bound at *
    linarith
  have hnotSmall : ¬ (count : Int) + scale < -323 := by
    intro hsmall
    have hle : (10 : ℚ) ^ ((count : Int) + scale) ≤ 10 ^ (-324 : Int) :=
      zpow_le_zpow_right₀ (by norm_num) (by omega)
    rw [zpow_add₀ hten] at hle
    have := mul_lt_mul_of_pos_right hhigh hpow
    have hlt := h.pow_ten_lt hs hpos
    linarith
  rw [ofDecimal, if_neg hdigits.ne', if_neg hnotLarge, if_neg hnotSmall]
  split
  · rename_i hscale
    obtain ⟨k, rfl⟩ := Int.eq_ofNat_of_zero_le hscale
    refine ofQuotient_eq (Nat.mul_pos hdigits (Nat.pow_pos (by decide))) one_pos hs ?_
    convert h using 1
    simp only [Int.toNat_natCast, zpow_natCast]
    push_cast
    rw [div_one]
    norm_num
  · rename_i hscale
    obtain ⟨k, hk⟩ := Int.eq_ofNat_of_zero_le (show 0 ≤ -scale by omega)
    refine ofQuotient_eq hdigits (Nat.pow_pos (by decide)) hs ?_
    convert h using 1
    have hscale : scale = -(k : Int) := by omega
    rw [hk, hscale, zpow_neg, zpow_natCast, div_eq_mul_inv]
    simp only [Int.toNat_natCast]
    norm_num

end Binary64

end AnnotatedShader.Number
