import CodeAtlas.Number.Decimal
import Mathlib.Algebra.Order.Field.Power
import Mathlib.Data.Nat.Log
import Mathlib.Data.Rat.Cast.Order
import Mathlib.Tactic.FieldSimp
import Mathlib.Tactic.GCongr
import Mathlib.Tactic.Linarith
import Mathlib.Tactic.Positivity
import Mathlib.Tactic.Ring

/-!
# How far rounding reaches

A decimal between zero and one is rounded to the nearest binary fraction, and what rounds to no less
than that is taken to be no less than the decimal.  This file says what that comes to in exact
numbers: nothing that is no less than the decimal is missed, and whatever is taken is below it by at
most `2 ^ (-52)`.
-/

namespace CodeAtlas.Number

/-- The value of a ratio. -/
def ratio (x : Nat × Nat) : ℚ := x.1 / x.2

/-- A quotient is rounded by at most a half. -/
theorem roundHalfEven_bounds {n d : Nat} (hd : 0 < d) :
    (roundHalfEven n d : ℚ) - 1 / 2 ≤ n / d ∧ (n / d : ℚ) ≤ roundHalfEven n d + 1 / 2 := by
  have hsum := Nat.div_add_mod n d
  have hmod := Nat.mod_lt n hd
  have hhalf : 2 * (d * roundHalfEven n d) ≤ 2 * n + d ∧ 2 * n ≤ 2 * (d * roundHalfEven n d) + d := by
    unfold roundHalfEven
    generalize n / d = q at hsum ⊢
    generalize n % d = r at hsum hmod ⊢
    dsimp only
    have hsucc : d * (q + 1) = d * q + d := Nat.mul_succ d q
    split
    · omega
    · split
      · omega
      · rcases Nat.mod_two_eq_zero_or_one q with hq | hq <;> simp only [hq, Nat.add_zero] <;> omega
  have hd' : (0 : ℚ) < d := by exact_mod_cast hd
  obtain ⟨hlow, hhigh⟩ := hhalf
  have hlow' : (2 * (d * roundHalfEven n d) : ℚ) ≤ 2 * n + d := by exact_mod_cast hlow
  have hhigh' : (2 * n : ℚ) ≤ 2 * (d * roundHalfEven n d) + d := by exact_mod_cast hhigh
  constructor
  · rw [le_div_iff₀ hd']
    linarith
  · rw [div_le_iff₀ hd']
    linarith

namespace Binary

theorem ratio_scale (num den : Nat) (e : Int) : ratio (scale num den e) = num / den * 2 ^ e := by
  unfold scale ratio
  split
  · rename_i he
    obtain ⟨k, rfl⟩ := Int.eq_ofNat_of_zero_le he
    simp [Nat.pow_eq, mul_div_right_comm]
  · rename_i he
    obtain ⟨k, hk⟩ := Int.eq_ofNat_of_zero_le (show 0 ≤ -e by omega)
    obtain rfl : e = -k := by omega
    simp [Nat.pow_eq, div_eq_mul_inv, mul_assoc, mul_comm]

theorem scale_den_pos (num : Nat) {den : Nat} (hden : 0 < den) (e : Int) : 0 < (scale num den e).2 := by
  unfold scale
  split
  · exact hden
  · exact Nat.mul_pos hden (Nat.pow_pos (by decide))

/-- What lies below a binary fraction as far as it is rounded up to it: half a unit, and half of
that below a power of two. -/
theorem ratio_lowerEnd {b : Binary} (hb : 0 < b.mantissa) :
    ratio b.lowerEnd =
      (b.mantissa - if b.mantissa = 2 ^ 52 ∧ b.exponent > -1074 then 1 / 4 else 1 / 2) *
        2 ^ b.exponent := by
  unfold lowerEnd
  rw [ratio_scale]
  have hpow : Nat.pow 2 52 = 2 ^ 52 := rfl
  rw [hpow]
  split
  · rw [Nat.cast_sub (by omega)]
    push_cast
    ring
  · rw [Nat.cast_sub (by omega)]
    push_cast
    ring

/-! ### The two steps of rounding -/

/-- The exponent with which a ratio is rounded. -/
def exponentFor (num den : Nat) : Int :=
  let guess : Int := max ((num.log2 : Int) - den.log2 - 53) (-1074)
  let fits (q : Int) : Bool := (scale num den (-q)).1 / (scale num den (-q)).2 < Nat.pow 2 53
  if fits guess then guess else guess + 1

/-- A ratio rounded with a given exponent.  A mantissa that became too long is a power of two. -/
def roundAt (num den : Nat) (q : Int) : Binary :=
  let m := roundHalfEven (scale num den (-q)).1 (scale num den (-q)).2
  if m = Nat.pow 2 53 then ⟨Nat.pow 2 52, q + 1⟩ else ⟨m, q⟩

theorem ofRatio?_of_pos {num den : Nat} (hnum : 0 < num) :
    ofRatio? num den =
      let b := roundAt num den (exponentFor num den)
      if b.exponent ≤ 971 then some b else none := by
  rw [ofRatio?, if_neg hnum.ne']
  rfl

variable {num den : Nat}

theorem exponentFor_bounds (hle : num ≤ den) :
    -1074 ≤ exponentFor num den ∧ exponentFor num den ≤ -52 := by
  have hlog : num.log2 ≤ den.log2 := by
    rw [Nat.log2_eq_log_two, Nat.log2_eq_log_two]
    exact Nat.log_mono_right hle
  unfold exponentFor
  dsimp only
  split <;> omega

/-- Unless the exponent is the least there is, no digit of the mantissa is wasted. -/
theorem le_scaled (hnum : 0 < num) (hden : 0 < den) (h : -1074 < exponentFor num den) :
    (2 : ℚ) ^ 52 ≤ num / den * 2 ^ (-exponentFor num den) := by
  have hden' : (0 : ℚ) < den := by exact_mod_cast hden
  unfold exponentFor at h ⊢
  generalize hguess : max ((num.log2 : Int) - den.log2 - 53) (-1074) = guess at h ⊢
  simp only [decide_eq_true_eq] at h ⊢
  split at h
  · rename_i hfits
    rw [if_pos hfits]
    have hlow : (2 : ℚ) ^ num.log2 ≤ num := by exact_mod_cast Nat.log2_self_le hnum.ne'
    have hhigh : (den : ℚ) ≤ 2 ^ (den.log2 + 1) := by exact_mod_cast Nat.lt_log2_self.le
    have hexponent : -guess = (den.log2 + 1 : Nat) - (num.log2 : Int) + 52 := by omega
    rw [hexponent, zpow_add₀ (by norm_num), zpow_sub₀ (by norm_num), zpow_natCast, zpow_natCast,
      div_mul_eq_mul_div, le_div_iff₀ hden']
    calc (2 : ℚ) ^ 52 * den ≤ 2 ^ 52 * 2 ^ (den.log2 + 1) := by gcongr
      _ = 2 ^ num.log2 * (2 ^ (den.log2 + 1) / 2 ^ num.log2 * 2 ^ 52) := by field_simp
      _ ≤ num * (2 ^ (den.log2 + 1) / 2 ^ num.log2 * 2 ^ 52) := by gcongr
  · rename_i hfits
    rw [if_neg hfits]
    have hlarge := Nat.le_of_not_lt hfits
    have hpos := scale_den_pos num hden (-guess)
    rw [Nat.le_div_iff_mul_le hpos] at hlarge
    have hratio : (2 : ℚ) ^ 53 ≤ ratio (scale num den (-guess)) := by
      rw [ratio, le_div_iff₀ (by exact_mod_cast hpos)]
      exact_mod_cast hlarge
    rw [ratio_scale] at hratio
    have hexponent : -(guess + 1) = -guess - 1 := by omega
    rw [hexponent, zpow_sub₀ (by norm_num)]
    linarith

/-- The lower end is what the rounded mantissa stands for, less at most a half. -/
theorem lowerEnd_roundAt (hnum : 0 < num) (hden : 0 < den) (hle : num ≤ den) :
    ∃ y : ℚ, ratio (roundAt num den (exponentFor num den)).lowerEnd =
        y * 2 ^ exponentFor num den ∧
      y ≤ num / den * 2 ^ (-exponentFor num den) ∧
      num / den * 2 ^ (-exponentFor num den) ≤ y + 1 := by
  obtain ⟨hleast, hhigh⟩ := exponentFor_bounds hle
  have hfull := le_scaled hnum hden
  generalize exponentFor num den = q at hleast hfull ⊢
  obtain ⟨hlow, hup⟩ := roundHalfEven_bounds (n := (scale num den (-q)).1)
    (scale_den_pos num hden (-q))
  have hratio := ratio_scale num den (-q)
  rw [ratio] at hratio
  rw [hratio] at hlow hup
  have hx : (0 : ℚ) ≤ num / den * 2 ^ (-q) := by positivity
  unfold roundAt
  dsimp only
  generalize roundHalfEven (scale num den (-q)).1 (scale num den (-q)).2 = m at hlow hup ⊢
  generalize (num / den * 2 ^ (-q) : ℚ) = x at hfull hlow hup hx ⊢
  split
  · -- The exponent went up by one, and with it the mantissa is a power of two.
    rename_i hcarry
    rw [hcarry] at hlow hup
    push_cast [Nat.pow_eq] at hlow hup
    refine ⟨2 ^ 53 - 1 / 2, ?_, hlow, by linarith⟩
    rw [ratio_lowerEnd (Nat.pow_pos (by decide)), if_pos ⟨rfl, by dsimp only; omega⟩]
    dsimp only
    rw [zpow_add₀ (by norm_num)]
    push_cast [Nat.pow_eq]
    ring
  · rcases Nat.eq_zero_or_pos m with rfl | hm
    · refine ⟨0, ?_, hx, by push_cast at hup; linarith⟩
      rw [lowerEnd, ratio_scale]
      simp
    · refine ⟨_, ratio_lowerEnd hm, ?_⟩
      dsimp only
      split
      · rename_i hpower
        have hfull := hfull hpower.2
        rw [hpower.1] at hup ⊢
        push_cast at hup ⊢
        constructor <;> linarith
      · constructor <;> linarith

/-- Whatever fraction of one is rounded, it is no less than the lower end and above it by at most
`2 ^ (-52)`. -/
theorem lowerEnd_bounds (hnum : 0 < num) (hle : num ≤ den) :
    ∃ b, ofRatio? num den = some b ∧ ratio b.lowerEnd ≤ num / den ∧
      (num / den : ℚ) ≤ ratio b.lowerEnd + 2 ^ (-52 : Int) := by
  have hden : 0 < den := lt_of_lt_of_le hnum hle
  obtain ⟨hlow, hhigh⟩ := exponentFor_bounds hle
  obtain ⟨y, hlower, hyx, hxy⟩ := lowerEnd_roundAt hnum hden hle
  have hexponent : (roundAt num den (exponentFor num den)).exponent ≤ 971 := by
    unfold roundAt
    dsimp only
    split <;> dsimp only <;> omega
  refine ⟨_, by rw [ofRatio?_of_pos hnum]; exact if_pos hexponent, ?_⟩
  generalize exponentFor num den = q at hhigh hlower hyx hxy ⊢
  have hunit : (0 : ℚ) < 2 ^ q := by positivity
  have hsmall : (2 : ℚ) ^ q ≤ 2 ^ (-52 : Int) := zpow_le_zpow_right₀ (by norm_num) hhigh
  have hscaled : (num / den : ℚ) = num / den * 2 ^ (-q) * 2 ^ q := by
    rw [mul_assoc, ← zpow_add₀ (by norm_num), neg_add_cancel, zpow_zero, mul_one]
  generalize (num / den * 2 ^ (-q) : ℚ) = x at hyx hxy hscaled
  rw [hlower, hscaled]
  constructor
  · gcongr
  · calc x * 2 ^ q ≤ (y + 1) * 2 ^ q := by gcongr
      _ ≤ y * 2 ^ q + 2 ^ (-52 : Int) := by linarith

end Binary

namespace Decimal

variable {d : Decimal}

theorem den_toRatio_pos (d : Decimal) : 0 < d.toRatio.2 := by
  unfold toRatio tenTo
  dsimp only
  split
  · exact Nat.one_pos
  · exact Nat.pow_pos (by decide)

theorem den_lowerEnd_pos (d : Decimal) : 0 < d.lowerEnd.2 := by
  unfold lowerEnd
  split
  · exact Nat.one_pos
  · exact Binary.scale_den_pos _ (by decide) _

theorem ratio_le_one (h : d.inUnit = true) : ratio d.toRatio ≤ 1 := by
  have hle : d.toRatio.1 ≤ d.toRatio.2 := by
    have hcases : d.toRatio.1 = 0 ∨ d.negative = false ∧ d.toRatio.1 ≤ d.toRatio.2 := by
      simpa [inUnit] using h
    rcases hcases with hzero | ⟨-, hle⟩
    · omega
    · exact hle
  rw [ratio, div_le_one (by exact_mod_cast d.den_toRatio_pos)]
  exact_mod_cast hle

/-- Between zero and one, the lower end of a decimal is no greater than the decimal itself, and not
much less. -/
theorem lowerEnd_bounds (h : d.inUnit = true) :
    ratio d.lowerEnd ≤ ratio d.toRatio ∧
      ratio d.toRatio ≤ ratio d.lowerEnd + 2 ^ (-52 : Int) := by
  have hcases : d.toRatio.1 = 0 ∨ d.negative = false ∧ d.toRatio.1 ≤ d.toRatio.2 := by
    simpa [inUnit] using h
  by_cases hzero : d.toRatio.1 = 0
  · have hlower : ratio d.lowerEnd = 0 := by
      unfold lowerEnd
      split
      · simp [ratio]
      · dsimp only
        rw [hzero, Binary.ofRatio?, if_pos rfl, Option.getD_some, Binary.lowerEnd,
          Binary.ratio_scale]
        simp [Binary.zero]
    rw [hlower, ratio, hzero]
    constructor <;> norm_num
  · obtain ⟨hsign, hle⟩ := hcases.resolve_left hzero
    obtain ⟨b, hb, hbounds⟩ := Binary.lowerEnd_bounds (Nat.pos_of_ne_zero hzero) hle
    have hlower : d.lowerEnd = b.lowerEnd := by
      unfold lowerEnd
      rw [if_neg (by simp [hsign])]
      dsimp only
      rw [hb, Option.getD_some]
    rw [hlower]
    exact hbounds

/-- Ratios with denominators that are not huge cannot lie between a decimal and its lower end. -/
theorem lowerEnd_le_iff (h : d.inUnit = true) {num den : Nat} (hden : 0 < den)
    (hsmall : den * d.toRatio.2 < 2 ^ 52) :
    ratio d.lowerEnd ≤ ratio (num, den) ↔ ratio d.toRatio ≤ ratio (num, den) := by
  obtain ⟨hlow, hhigh⟩ := lowerEnd_bounds h
  refine ⟨fun hle => ?_, hlow.trans⟩
  by_contra hlt
  have hd : (0 : ℚ) < d.toRatio.2 := by exact_mod_cast d.den_toRatio_pos
  have hden' : (0 : ℚ) < den := by exact_mod_cast hden
  have hgap : (1 : ℚ) / (den * d.toRatio.2) ≤ ratio d.toRatio - ratio (num, den) := by
    have hcross : num * d.toRatio.2 + 1 ≤ d.toRatio.1 * den := by
      rw [ratio, ratio, not_le, div_lt_div_iff₀ hden' hd] at hlt
      exact_mod_cast hlt
    have hcross' : (num * d.toRatio.2 + 1 : ℚ) ≤ d.toRatio.1 * den := by exact_mod_cast hcross
    have hproduct : (0 : ℚ) < den * d.toRatio.2 := mul_pos hden' hd
    rw [ratio, ratio, div_sub_div _ _ hd.ne' hden'.ne', mul_comm (d.toRatio.2 : ℚ) den]
    exact div_le_div_of_nonneg_right (by linarith) hproduct.le
  have hunit : (2 : ℚ) ^ (-52 : Int) < 1 / (den * d.toRatio.2) := by
    rw [zpow_neg, lt_div_iff₀ (by positivity), inv_mul_lt_iff₀ (by positivity), mul_one]
    exact_mod_cast hsmall
  have hwithin : ratio d.toRatio - ratio (num, den) ≤ 2 ^ (-52 : Int) := by linarith
  exact lt_irrefl _ ((hunit.trans_le hgap).trans_le hwithin)

end Decimal

end CodeAtlas.Number
