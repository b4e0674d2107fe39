import AnnotatedShader.Number.Shortest
import AnnotatedShader.Proofs.Number.Rounding

set_option autoImplicit false

/-!
# The decimal that a value is written with

A candidate for the decimal of a value lies in the rounding interval of the value, because it is
checked to.  With seventeen digits there is always a candidate: the decimals of this length lie
closer together than the values do.  So every value has a shortest decimal, and it is read back as
the value (`shortest_spec`).

Intervals are compared without division; `toRat` is the rational number that a pair of integers
stands for, and `contains_around_iff` turns the check into an inequality.  The step of the grid of
candidates is the power of ten at the leading digit (`pow_leadingExponent_le`), which is below the
gap between values when there are seventeen digits (`pow_ten_lt_gapBelow`).
-/

namespace AnnotatedShader.Number

open Binary64 (significandBound minExponent gapBelow gapBelow_le RoundsTo Canonical finite
  cast_significandBound)

/-! ## Quotients -/

namespace Quotient

/-- The number that a quotient is. -/
def toRat (q : Quotient) : ℚ := q.num / q.den

/-- A quotient has a positive denominator. -/
def Proper (q : Quotient) : Prop := 0 < q.den

theorem scaled_proper (significand : Nat) {base : Nat} (hbase : 0 < base) (exponent : Int) :
    (scaled significand base exponent).Proper := by
  rw [scaled]
  split
  · exact one_pos
  · exact Nat.pow_pos hbase

theorem toRat_scaled (significand : Nat) {base : Nat} (hbase : 0 < base) (exponent : Int) :
    (scaled significand base exponent).toRat = significand * (base : ℚ) ^ exponent := by
  have hb : (base : ℚ) ≠ 0 := by exact_mod_cast hbase.ne'
  rw [scaled, toRat]
  split
  · rename_i he
    obtain ⟨k, rfl⟩ := Int.eq_ofNat_of_zero_le he
    simp only [Int.toNat_natCast, zpow_natCast, Nat.cast_one, div_one]
    exact_mod_cast rfl
  · rename_i he
    obtain ⟨k, hk⟩ := Int.eq_ofNat_of_zero_le (show 0 ≤ -exponent by omega)
    have hexponent : exponent = -(k : Int) := by omega
    simp only [hk, Int.toNat_natCast]
    rw [hexponent, zpow_neg, zpow_natCast, div_eq_mul_inv]
    exact_mod_cast rfl

theorem num_pos_of_toRat_pos {q : Quotient} (h : 0 < q.toRat) : 0 < q.num := by
  by_contra hzero
  rw [toRat, Nat.eq_zero_of_not_pos hzero, Nat.cast_zero, zero_div] at h
  exact lt_irrefl _ h

theorem le_iff {a b : Quotient} (ha : a.Proper) (hb : b.Proper) :
    a.le b = true ↔ a.toRat ≤ b.toRat := by
  have ha : (0 : ℚ) < a.den := by exact_mod_cast ha
  have hb : (0 : ℚ) < b.den := by exact_mod_cast hb
  rw [le, decide_eq_true_eq, toRat, toRat, div_le_div_iff₀ ha hb]
  exact_mod_cast Iff.rfl

theorem lt_iff {a b : Quotient} (ha : a.Proper) (hb : b.Proper) :
    a.lt b = true ↔ a.toRat < b.toRat := by
  have ha : (0 : ℚ) < a.den := by exact_mod_cast ha
  have hb : (0 : ℚ) < b.den := by exact_mod_cast hb
  rw [lt, decide_eq_true_eq, toRat, toRat, div_lt_div_iff₀ ha hb]
  exact_mod_cast Iff.rfl

end Quotient

/-! ## Intervals -/

namespace RoundingInterval

/-- The ends of the interval around a value. -/
theorem toRat_around {s : Nat} (hs : 0 < s) (e : Int) :
    (around s e).low.toRat = (s - gapBelow s e) * 2 ^ e ∧
      (around s e).high.toRat = (s + 1 / 2) * 2 ^ e := by
  have hquarter : (2 : ℚ) ^ (e - 2) = 1 / 4 * 2 ^ e := by
    rw [zpow_sub₀ two_ne_zero]
    norm_num
    ring
  have htwo : ((2 : Nat) : ℚ) = 2 := rfl
  constructor
  · simp only [around, gapBelow, Bool.and_eq_true, decide_eq_true_eq]
    rw [Quotient.toRat_scaled _ two_pos, htwo, hquarter]
    split
    · rw [Nat.cast_sub (by omega)]
      push_cast
      ring
    · rw [Nat.cast_sub (by omega)]
      push_cast
      ring
  · simp only [around]
    rw [Quotient.toRat_scaled _ two_pos, htwo, hquarter]
    push_cast
    ring

/-- What an interval contains rounds to its value. -/
theorem contains_around_iff {s : Nat} (hs : 0 < s) {e : Int} {q : Quotient} (hq : q.Proper) :
    (around s e).contains q = true ↔ RoundsTo q.toRat s e := by
  obtain ⟨hlow, hhigh⟩ := toRat_around hs e
  have hlowProper : (around s e).low.Proper := Quotient.scaled_proper _ two_pos _
  have hhighProper : (around s e).high.Proper := Quotient.scaled_proper _ two_pos _
  have hclosed : (around s e).closed = true ↔ s % 2 = 0 := by simp [around]
  rw [contains]
  split
  · rename_i h
    rw [Bool.and_eq_true, Quotient.le_iff hlowProper hq, Quotient.le_iff hq hhighProper, hlow,
      hhigh]
    have heven := hclosed.mp h
    exact ⟨fun h => ⟨h.1, h.2, fun hodd => by omega⟩, fun h => ⟨h.low, h.high⟩⟩
  · rename_i h
    rw [Bool.and_eq_true, Quotient.lt_iff hlowProper hq, Quotient.lt_iff hq hhighProper, hlow,
      hhigh]
    have hodd : s % 2 = 1 := by
      have := mt hclosed.mpr h
      omega
    exact ⟨fun h => ⟨h.1.le, h.2.le, fun _ => h⟩, fun h => h.odd hodd⟩

end RoundingInterval

/-! ## The leading digit -/

theorem one_le_stepsBelowOne {fuel : Nat} {q : Quotient} (hq : q.Proper)
    (h : 1 ≤ q.toRat * 10 ^ fuel) : 1 ≤ q.toRat * 10 ^ stepsBelowOne fuel q := by
  induction fuel generalizing q with
  | zero => exact h
  | succ fuel ih =>
    rw [stepsBelowOne]
    split
    · rename_i hle
      have hd : (0 : ℚ) < q.den := by exact_mod_cast hq
      rw [pow_zero, mul_one, Quotient.toRat, le_div_iff₀ hd, one_mul]
      exact_mod_cast hle
    · have htimes : (⟨q.num * 10, q.den⟩ : Quotient).toRat = q.toRat * 10 := by
        rw [Quotient.toRat, Quotient.toRat]
        push_cast
        ring
      have hrest := ih (q := ⟨q.num * 10, q.den⟩) hq (by rwa [htimes, mul_assoc, ← pow_succ'])
      rwa [htimes, mul_assoc, ← pow_succ'] at hrest

/-- A positive quotient is at least the power of ten at its leading digit. -/
theorem pow_leadingExponent_le {q : Quotient} (hnum : 0 < q.num) (hq : q.Proper) :
    (10 : ℚ) ^ leadingExponent q ≤ q.toRat := by
  have hd : (0 : ℚ) < q.den := by exact_mod_cast hq
  rw [leadingExponent]
  split
  · rename_i hle
    have hfloor : 0 < q.num / q.den := Nat.div_pos hle hq
    obtain ⟨k, hk⟩ : ∃ k, (Nat.toDigits 10 (q.num / q.den)).length = k + 1 :=
      Nat.exists_eq_succ_of_ne_zero Nat.length_toDigits_pos.ne'
    have hpow : 10 ^ k ≤ q.num / q.den := by
      by_contra hlt
      rcases Nat.eq_zero_or_pos k with rfl | hpos
      · omega
      · have := (Nat.length_toDigits_le_iff (by decide) hpos).mpr (not_le.mp hlt)
        omega
    rw [hk, Nat.cast_add, Nat.cast_one, add_sub_cancel_right, zpow_natCast, Quotient.toRat,
      le_div_iff₀ hd]
    have := (Nat.le_div_iff_mul_le hq).mp hpow
    exact_mod_cast this
  · have hfuel : (1 : ℚ) ≤ q.toRat * 10 ^ (Nat.log2 q.den + 1) := by
      rw [Quotient.toRat, div_mul_eq_mul_div, le_div_iff₀ hd, one_mul]
      have hden : q.den ≤ 10 ^ (Nat.log2 q.den + 1) :=
        le_trans Nat.lt_log2_self.le (Nat.pow_le_pow_left (by decide) _)
      have := Nat.mul_le_mul hnum hden
      rw [Nat.one_mul] at this
      exact_mod_cast this
    have hsteps := one_le_stepsBelowOne hq hfuel
    rw [zpow_neg, zpow_natCast, inv_le_iff_one_le_mul₀ (by positivity)]
    exact hsteps

/-! ## Candidates -/

theorem value_proper (d : Decimal) : d.value.Proper := Quotient.scaled_proper _ (by decide) _

theorem toRat_value (d : Decimal) : d.value.toRat = d.digits * 10 ^ d.scale :=
  Quotient.toRat_scaled _ (by decide) _

theorem contains_of_nearestOnGrid? {i : RoundingInterval} {scale : Int} {d : Decimal}
    (h : nearestOnGrid? i scale = some d) : i.contains d.value = true := by
  unfold nearestOnGrid? at h
  dsimp only at h
  split at h
  · rename_i hcontains
    rwa [Option.some.inj h] at hcontains
  split at h
  · rename_i hcontains
    rwa [Option.some.inj h] at hcontains
  split at h
  · rename_i hcontains
    rwa [Option.some.inj h] at hcontains
  · contradiction

/-- A grid that is finer than the rounding interval has a point in it. -/
theorem nearestOnGrid?_isSome {s : Nat} (hs : 0 < s) {e scale : Int}
    (hfine : (10 : ℚ) ^ scale / 2 < gapBelow s e * 2 ^ e) :
    (nearestOnGrid? (.around s e) scale).isSome = true := by
  let unit := Quotient.scaled 1 10 scale
  let i := RoundingInterval.around s e
  let nearest : Decimal :=
    ⟨divideNearest (i.value.num * unit.den) (i.value.den * unit.num), scale⟩
  have hten : (0 : ℚ) < 10 ^ scale := zpow_pos (by norm_num) _
  have hunit : unit.toRat = 10 ^ scale := by
    rw [Quotient.toRat_scaled _ (by decide), Nat.cast_one, one_mul]
    rfl
  have hunitProper : unit.Proper := Quotient.scaled_proper _ (by decide) _
  have hvalue : i.value.toRat = s * 2 ^ e := Quotient.toRat_scaled _ two_pos _
  have hvalueProper : i.value.Proper := Quotient.scaled_proper _ two_pos _
  have hunitNum : 0 < unit.num := Quotient.num_pos_of_toRat_pos (hunit ▸ hten)
  have hquotient : ((i.value.num * unit.den : Nat) : ℚ) / (i.value.den * unit.num : Nat) =
      s * 2 ^ e / 10 ^ scale := by
    rw [← hvalue, ← hunit, Quotient.toRat, Quotient.toRat, div_div_div_eq]
    push_cast
    rfl
  have hdist := divideNearest_dist (i.value.num * unit.den)
    (Nat.mul_pos hvalueProper hunitNum)
  rw [hquotient, abs_le] at hdist
  have hcontains : i.contains nearest.value = true := by
    rw [RoundingInterval.contains_around_iff hs (value_proper nearest), toRat_value]
    have hgap := gapBelow_le s e
    have hpow := zpow_pos (two_pos (α := ℚ)) e
    have hlow : s * 2 ^ e - 10 ^ scale / 2 ≤ (nearest.digits : ℚ) * 10 ^ scale := by
      have := mul_le_mul_of_nonneg_right hdist.1 hten.le
      rw [sub_mul, div_mul_cancel₀ _ hten.ne'] at this
      linarith
    have hhigh : (nearest.digits : ℚ) * 10 ^ scale ≤ s * 2 ^ e + 10 ^ scale / 2 := by
      have := mul_le_mul_of_nonneg_right hdist.2 hten.le
      rw [sub_mul, div_mul_cancel₀ _ hten.ne'] at this
      linarith
    have hgapScaled := mul_le_mul_of_nonneg_right hgap hpow.le
    have hlow : (s - gapBelow s e) * 2 ^ e < (nearest.digits : ℚ) * 10 ^ scale := by
      rw [sub_mul]
      linarith
    have hhigh : (nearest.digits : ℚ) * 10 ^ scale < (s + 1 / 2) * 2 ^ e := by
      rw [add_mul]
      linarith
    exact ⟨hlow.le, hhigh.le, fun _ => ⟨hlow, hhigh⟩⟩
  have hsome : nearestOnGrid? i scale = some nearest := by
    rw [nearestOnGrid?]
    exact if_pos hcontains
  rw [show nearestOnGrid? (.around s e) scale = some nearest from hsome]
  rfl

/-- Seventeen digits are finer than the rounding interval of a canonical value. -/
theorem pow_ten_lt_gapBelow {negative : Bool} {s : Nat} {e leading : Int}
    (hs : (finite negative s e).Canonical) (h : (10 : ℚ) ^ leading ≤ s * 2 ^ e) :
    (10 : ℚ) ^ (leading - 16) / 2 < gapBelow s e * 2 ^ e := by
  have hpow := zpow_pos (two_pos (α := ℚ)) e
  have hbound : (significandBound : ℚ) < 10 ^ (16 : Int) := by
    rw [significandBound]
    norm_num
  have hsmall : (s : ℚ) < 2 * gapBelow s e * 10 ^ (16 : Int) := by
    cases hs with | finite _ _ _ hlt hmin hmax hfull => ?_
    have hlt : (s : ℚ) < significandBound := by exact_mod_cast hlt
    have htwice := cast_significandBound
    rw [gapBelow]
    split
    · rename_i hhalf
      rw [← hhalf.1] at htwice
      linarith
    · linarith
  have hsixteen := zpow_pos (show (0 : ℚ) < 10 by norm_num) 16
  rw [zpow_sub₀ (by norm_num), div_div, div_lt_iff₀ (by positivity)]
  have := mul_lt_mul_of_pos_right hsmall hpow
  linarith

/-- One of the candidates for a decimal, if there is any, is the decimal. -/
theorem exists_nearestOnGrid?_eq_shortest {s : Nat} {e : Int} {n : Nat} (hn : n < 17)
    (h : (nearestOnGrid? (.around s e)
      (leadingExponent (RoundingInterval.around s e).value - n)).isSome = true) :
    ∃ scale, nearestOnGrid? (.around s e) scale = some (shortest s e) := by
  rw [shortest]
  generalize hcandidates : (List.range 17).filterMap (fun (n : Nat) =>
    nearestOnGrid? (.around s e) (leadingExponent (RoundingInterval.around s e).value - n)) =
      candidates
  have hmem : ∀ d, d ∈ candidates ↔ ∃ n ∈ List.range 17, nearestOnGrid? (.around s e)
      (leadingExponent (RoundingInterval.around s e).value - n) = some d := by
    intro d
    rw [← hcandidates, List.mem_filterMap]
  obtain ⟨d, hd⟩ := Option.isSome_iff_exists.mp h
  cases candidates with
  | nil => exact absurd ((hmem d).mpr ⟨n, List.mem_range.mpr hn, hd⟩) List.not_mem_nil
  | cons first rest =>
    obtain ⟨n, _, hfirst⟩ := (hmem first).mp List.mem_cons_self
    exact ⟨_, hfirst⟩

/-- The shortest decimal of a canonical value is positive and rounds to the value. -/
theorem shortest_spec {negative : Bool} {s : Nat} {e : Int} (hpos : 0 < s)
    (hs : (finite negative s e).Canonical) :
    0 < (shortest s e).digits ∧
      RoundsTo (((shortest s e).digits : ℚ) * 10 ^ (shortest s e).scale) s e := by
  have hone : (1 : ℚ) ≤ s := by exact_mod_cast hpos
  have hpow := zpow_pos (two_pos (α := ℚ)) e
  have hvalue : (RoundingInterval.around s e).value.toRat = s * 2 ^ e :=
    Quotient.toRat_scaled _ two_pos _
  have hvaluePos : 0 < (RoundingInterval.around s e).value.toRat := by
    rw [hvalue]
    exact mul_pos (by linarith) hpow
  have hleading := pow_leadingExponent_le (Quotient.num_pos_of_toRat_pos hvaluePos)
    (Quotient.scaled_proper _ two_pos _)
  rw [hvalue] at hleading
  obtain ⟨scale, hscale⟩ := exists_nearestOnGrid?_eq_shortest (n := 16) (by decide)
    (nearestOnGrid?_isSome hpos (pow_ten_lt_gapBelow hs hleading))
  have hrounds := (RoundingInterval.contains_around_iff hpos (value_proper _)).mp
    (contains_of_nearestOnGrid? hscale)
  rw [toRat_value] at hrounds
  refine ⟨Nat.pos_of_ne_zero fun hzero => ?_, hrounds⟩
  have := hrounds.pos hpos
  simp [hzero] at this

end AnnotatedShader.Number
