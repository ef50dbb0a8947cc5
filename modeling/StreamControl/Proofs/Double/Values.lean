import Mathlib.Algebra.Order.Field.Basic
import Mathlib.Algebra.Order.Field.Power
import Mathlib.Algebra.Order.Field.Rat
import Mathlib.Order.Monotone.Basic
import Mathlib.Tactic.FieldSimp
import Mathlib.Tactic.Linarith
import Mathlib.Tactic.NormNum
import Mathlib.Tactic.Positivity
import Mathlib.Tactic.Ring
import StreamControl.Double.Basic

/-!
# The numbers that magnitudes stand for

`Magnitude.value` is the number that a magnitude stands for.  Magnitudes count these numbers in
order, and the gaps between neighbours never shrink (`Magnitude.gap_le_gap`); half-way between
neighbours lies `Magnitude.mid`, where rounding changes its mind.

Calculations split a magnitude into a scale and a significand (`Magnitude.Parts`): on one scale,
values are multiples of a power of two.
-/

namespace StreamControl

/-- Half the distance between one and the next larger double. -/
def halfUnit : ℚ := 1 / 2 ^ 53

theorem twoTo_eq (n : ℕ) : twoTo n = 2 ^ n := rfl

theorem tenTo_eq (n : ℕ) : tenTo n = 10 ^ n := rfl

theorem cast_twoTo (n : ℕ) : ((twoTo n : ℕ) : ℚ) = 2 ^ n := by
  rw [twoTo_eq]
  exact Nat.cast_pow 2 n

theorem cast_tenTo (n : ℕ) : ((tenTo n : ℕ) : ℚ) = 10 ^ n := by
  rw [tenTo_eq]
  exact Nat.cast_pow 10 n

theorem twoTo_pos (n : ℕ) : 0 < twoTo n := Nat.pow_pos (by decide)

theorem tenTo_pos (n : ℕ) : 0 < tenTo n := Nat.pow_pos (by decide)

/-- A power with any exponent as a quotient of powers with natural ones. -/
theorem pow_toNat_div (b : ℚ) (hb : b ≠ 0) (e : ℤ) :
    b ^ e.toNat / b ^ (-e).toNat = b ^ e := by
  rw [← zpow_natCast, ← zpow_natCast, ← zpow_sub₀ hb, Int.toNat_sub_toNat_neg]

namespace Magnitude

/-! ## Values -/

/-- The number that a magnitude stands for. -/
def value (x : Magnitude) : ℚ := x.significand * 2 ^ x.exponent

theorem den_pos (x : Magnitude) : 0 < x.den := twoTo_pos _

/-- Numerator and denominator make up the value. -/
theorem num_div_den (x : Magnitude) : (x.num : ℚ) / x.den = x.value := by
  rw [num, den, Nat.cast_mul, cast_twoTo, cast_twoTo, mul_div_assoc,
    pow_toNat_div 2 two_ne_zero, value]

/-! ## Scale and significand -/

/-- A magnitude split into the scale of its range and its significand. -/
structure Parts (x : Magnitude) (scale significand : ℕ) : Prop where
  eq : x = scale * twoTo 52 + significand
  lt : significand < twoTo 53
  /-- Only on the lowest scale may the leading digit be missing. -/
  lead : scale = 0 ∨ twoTo 52 ≤ significand

/-- The power of two that values on a scale are multiples of. -/
def unit (scale : ℕ) : ℚ := 2 ^ ((scale : ℤ) - 1074)

theorem unit_pos (scale : ℕ) : 0 < unit scale := zpow_pos two_pos _

theorem unit_add (scale n : ℕ) : unit (scale + n) = 2 ^ n * unit scale := by
  have hshift : ((scale + n : ℕ) : ℤ) - 1074 = n + ((scale : ℤ) - 1074) := by
    push_cast
    ring
  rw [unit, hshift, zpow_add₀ two_ne_zero, zpow_natCast, unit]

theorem unit_succ (scale : ℕ) : unit (scale + 1) = 2 * unit scale := by
  rw [unit_add, pow_one]

/-- Natural numbers below the hidden digit's weight stand on this scale. -/
theorem unit_one : unit 1074 = 1 := zpow_zero 2

theorem exists_parts (x : ℕ) : ∃ scale significand, Parts x scale significand := by
  have hdouble : twoTo 53 = twoTo 52 + twoTo 52 := rfl
  obtain ⟨r, below, hx, hbelow⟩ : ∃ r below, x = r * twoTo 52 + below ∧ below < twoTo 52 :=
    ⟨x / twoTo 52, x % twoTo 52, (Nat.div_add_mod' x _).symm, Nat.mod_lt _ (twoTo_pos 52)⟩
  -- the lowest two ranges share a scale
  rcases r with _ | r
  · exact ⟨0, below, hx, by omega, .inl rfl⟩
  · refine ⟨r, twoTo 52 + below, ?_, by omega, .inr (Nat.le_add_right _ _)⟩
    rw [hx, Nat.succ_mul, Nat.add_assoc]

theorem parts_zero : Parts 0 0 0 := ⟨rfl, by decide, .inl rfl⟩

/-- Odd and even magnitudes take turns within their scales. -/
theorem scale_parity (scale significand : ℕ) :
    (scale * twoTo 52 + significand) % 2 = significand % 2 := by
  have hscale : scale * twoTo 52 % 2 = 0 := by
    rw [Nat.mul_mod, show twoTo 52 % 2 = 0 from rfl, Nat.mul_zero, Nat.zero_mod]
  rw [Nat.add_mod, hscale, Nat.zero_add, Nat.mod_mod]

namespace Parts

variable {x scale significand : ℕ}

theorem div_mod (h : Parts x scale significand) (hlead : twoTo 52 ≤ significand) :
    x / twoTo 52 = scale + 1 ∧ x % twoTo 52 = significand - twoTo 52 := by
  have hlt := h.lt
  have hdouble : twoTo 53 = twoTo 52 + twoTo 52 := rfl
  -- the leading digit of the significand is counted to the scale
  have hx : x = (significand - twoTo 52) + (scale + 1) * twoTo 52 := by
    rw [h.eq, Nat.add_mul]
    omega
  have hbelow : significand - twoTo 52 < twoTo 52 := by omega
  rw [hx]
  constructor
  · rw [Nat.add_mul_div_right _ _ (twoTo_pos 52), Nat.div_eq_of_lt hbelow, Nat.zero_add]
  · rw [Nat.add_mul_mod_self_right, Nat.mod_eq_of_lt hbelow]

theorem significand_eq (h : Parts x scale significand) :
    Magnitude.significand x = significand := by
  unfold Magnitude.significand range
  by_cases hlow : significand < twoTo 52
  · obtain rfl := h.lead.resolve_right (Nat.not_le.2 hlow)
    have hx : x = significand := by rw [h.eq, Nat.zero_mul, Nat.zero_add]
    rw [hx, if_pos (Nat.div_eq_of_lt hlow), Nat.mod_eq_of_lt hlow]
  · obtain ⟨hdiv, hmod⟩ := h.div_mod (Nat.not_lt.1 hlow)
    rw [hdiv, hmod, if_neg (Nat.succ_ne_zero scale)]
    omega

theorem exponent_eq (h : Parts x scale significand) :
    Magnitude.exponent x = (scale : ℤ) - 1074 := by
  unfold Magnitude.exponent range
  by_cases hlow : significand < twoTo 52
  · obtain rfl := h.lead.resolve_right (Nat.not_le.2 hlow)
    have hx : x = significand := by rw [h.eq, Nat.zero_mul, Nat.zero_add]
    rw [hx, if_pos (Nat.div_eq_of_lt hlow)]
    rfl
  · rw [(h.div_mod (Nat.not_lt.1 hlow)).1, if_neg (Nat.succ_ne_zero scale)]
    push_cast
    ring

theorem value_eq (h : Parts x scale significand) : value x = significand * unit scale := by
  rw [value, h.significand_eq, h.exponent_eq, unit]

end Parts

/-- On its scale a magnitude stands for a multiple of the unit, also where the significand has just
run over into the next scale. -/
theorem value_of_le {x scale significand : ℕ} (heq : x = scale * twoTo 52 + significand)
    (hle : significand ≤ twoTo 53) (hlead : scale = 0 ∨ twoTo 52 ≤ significand) :
    value x = significand * unit scale := by
  have hdouble : twoTo 53 = twoTo 52 + twoTo 52 := rfl
  rcases Nat.lt_or_ge significand (twoTo 53) with hlt | hge
  · have hparts : Parts x scale significand := ⟨heq, hlt, hlead⟩
    exact hparts.value_eq
  · -- twice the least significand of this scale is the least one of the next
    have hfull : significand = twoTo 53 := Nat.le_antisymm hle hge
    have hx : x = (scale + 1) * twoTo 52 + twoTo 52 := by
      rw [heq, hfull, hdouble, Nat.succ_mul, Nat.add_assoc]
    have hparts : Parts x (scale + 1) (twoTo 52) := ⟨hx, by decide, .inr (Nat.le_refl _)⟩
    rw [hparts.value_eq, hfull, unit_succ, hdouble]
    push_cast
    ring

namespace Parts

variable {x scale significand : ℕ}

theorem value_succ (h : Parts x scale significand) :
    value (x + 1) = (significand + 1) * unit scale := by
  have heq : x + 1 = scale * twoTo 52 + (significand + 1) := by rw [h.eq, Nat.add_assoc]
  rw [value_of_le heq h.lt (h.lead.imp_right Nat.le_succ_of_le)]
  push_cast
  rfl

/-- The next magnitude lies on the same scale, or begins the next one. -/
theorem succ (h : Parts x scale significand) :
    Parts (x + 1) scale (significand + 1) ∨ Parts (x + 1) (scale + 1) (twoTo 52) := by
  by_cases hfull : significand + 1 < twoTo 53
  · left
    exact ⟨by rw [h.eq, Nat.add_assoc], hfull, h.lead.imp_right Nat.le_succ_of_le⟩
  · right
    have hlast : significand + 1 = twoTo 53 := by
      have hlt := h.lt
      omega
    have hdouble : twoTo 53 = twoTo 52 + twoTo 52 := rfl
    refine ⟨?_, by decide, .inr (Nat.le_refl _)⟩
    rw [h.eq, Nat.add_assoc, hlast, hdouble, Nat.succ_mul, Nat.add_assoc]

end Parts

/-! ## Neighbours -/

/-- The distance to the next number. -/
def gap (x : Magnitude) : ℚ := value (x + 1) - value x

/-- The point half-way to the next number. -/
def mid (x : Magnitude) : ℚ := (value x + value (x + 1)) / 2

theorem Parts.gap_eq {x scale significand : ℕ} (h : Parts x scale significand) :
    gap x = unit scale := by
  rw [gap, h.value_succ, h.value_eq]
  ring

theorem Parts.mid_eq {x scale significand : ℕ} (h : Parts x scale significand) :
    mid x = (significand + 1 / 2) * unit scale := by
  rw [mid, h.value_succ, h.value_eq]
  ring

theorem gap_zero : gap 0 = unit 0 := parts_zero.gap_eq

theorem gap_pos (x : Magnitude) : 0 < gap x := by
  obtain ⟨scale, significand, h⟩ := exists_parts x
  rw [h.gap_eq]
  exact unit_pos scale

/-- Larger numbers lie no closer together. -/
theorem gap_le_gap (x : Magnitude) : gap x ≤ gap (x + 1) := by
  obtain ⟨scale, significand, h⟩ := exists_parts x
  have hpos := unit_pos scale
  rw [h.gap_eq]
  rcases h.succ with hsame | hnext
  · rw [hsame.gap_eq]
  · rw [hnext.gap_eq, unit_succ]
    linarith

theorem gap_mono {x y : ℕ} (h : x ≤ y) : gap x ≤ gap y := monotone_nat_of_le_succ gap_le_gap h

theorem value_lt_value_succ (x : Magnitude) : value x < value (x + 1) := by
  have hgap := gap_pos x
  rw [gap] at hgap
  linarith

theorem value_strictMono : StrictMono value := strictMono_nat_of_lt_succ value_lt_value_succ

theorem value_zero : value 0 = 0 := by rw [parts_zero.value_eq, Nat.cast_zero, zero_mul]

theorem value_nonneg (x : Magnitude) : 0 ≤ value x := by
  rw [← value_zero]
  exact value_strictMono.monotone (Nat.zero_le x)

/-- Apart from zero, no number is smaller than its distance to the next. -/
theorem gap_le_value (x : Magnitude) : gap (x + 1) ≤ value (x + 1) := by
  obtain ⟨scale, significand, h⟩ := exists_parts (x + 1)
  have hpos : 0 < value (x + 1) := (value_nonneg x).trans_lt (value_lt_value_succ x)
  rw [h.value_eq] at hpos
  have hone : (1 : ℚ) ≤ significand := by
    have hreal := (mul_pos_iff_of_pos_right (unit_pos scale)).1 hpos
    exact_mod_cast hreal
  rw [h.gap_eq, h.value_eq]
  exact le_mul_of_one_le_left (unit_pos scale).le hone

theorem value_lt_mid (x : Magnitude) : value x < mid x := by
  have hnext := value_lt_value_succ x
  rw [mid]
  linarith

theorem mid_lt_value_succ (x : Magnitude) : mid x < value (x + 1) := by
  have hnext := value_lt_value_succ x
  rw [mid]
  linarith

theorem mid_strictMono : StrictMono mid :=
  strictMono_nat_of_lt_succ fun x => (mid_lt_value_succ x).trans (value_lt_mid (x + 1))

theorem mid_le_mid {x y : ℕ} (h : x ≤ y) : mid x ≤ mid y := mid_strictMono.monotone h

theorem mid_pos (x : Magnitude) : 0 < mid x := (value_nonneg x).trans_lt (value_lt_mid x)

/-- Two numbers further, the point half-way has moved by two gaps at least. -/
theorem mid_add_two (x : Magnitude) : mid x + 2 * gap x ≤ mid (x + 2) := by
  have hfirst := gap_le_gap x
  have hsecond := gap_le_gap (x + 1)
  simp only [gap, mid, Nat.add_assoc, Nat.reduceAdd] at hfirst hsecond ⊢
  linarith

/-- Two roundings cannot carry a number over two half-way points. -/
theorem mid_mul_lt (x : Magnitude) : mid x * (1 + halfUnit) ^ 2 < mid (x + 2) := by
  obtain ⟨scale, significand, h⟩ := exists_parts x
  refine lt_of_lt_of_le ?_ (mid_add_two x)
  have hlt : ((significand : ℕ) : ℚ) + 1 ≤ 2 ^ 53 := by
    have hle := h.lt
    rw [twoTo_eq] at hle
    exact_mod_cast hle
  have hpos := unit_pos scale
  rw [h.mid_eq, h.gap_eq]
  -- the significand has 53 digits, so what is added stays just below two units
  have hadded : (significand + 1 / 2 : ℚ) * ((1 + halfUnit) ^ 2 - 1) < 2 := by
    have hbound : (significand + 1 / 2 : ℚ) ≤ 2 ^ 53 - 1 / 2 := by linarith
    have hunit : 0 ≤ (1 + halfUnit) ^ 2 - 1 := by norm_num [halfUnit]
    calc (significand + 1 / 2 : ℚ) * ((1 + halfUnit) ^ 2 - 1)
        ≤ (2 ^ 53 - 1 / 2) * ((1 + halfUnit) ^ 2 - 1) := mul_le_mul_of_nonneg_right hbound hunit
      _ < 2 := by norm_num [halfUnit]
  have hscaled := mul_lt_mul_of_pos_right hadded hpos
  linarith

end Magnitude

end StreamControl
