import StreamControl.Json.Number
import StreamControl.Proofs.Double.Rounding

/-!
# Scaling by powers of ten

A numeral's digits and exponent are read with two roundings or more: that of the digits, that of the
power of ten, and that of their product or quotient.  Where digits and power are small enough to be
exact, the nearest double comes out (`Numeral.scaled?_exact`); in any case the result is at most two
doubles away from it (`Numeral.scaled?_drift`).

Only below `10 ^ (-308)` a second division follows the first.  It is exact in its divisor, but the
first quotient was rounded already.  The error stays in bounds because of where the divisor of the
first division lies between two powers of two (`Numeral.quotient_maxPower_within`).
-/

namespace StreamControl.Json

open Magnitude

namespace Numeral

/-! ## Digits and powers of ten as doubles -/

/-- Numbers up to the largest power of ten have a finite magnitude. -/
theorem ofNat_nearest_of_le {n : ℕ} (h : n ≤ tenTo maxPower) :
    Nearest n (ofNat n) ∧ ofNat n < infinite := by
  have hbound : tenTo maxPower < (twoTo 54 - 1) * twoTo 970 := by decide +kernel
  have hlt : (n : ℚ) < mid (infinite - 1) := by
    rw [mid_last]
    exact_mod_cast Nat.lt_of_le_of_lt h hbound
  exact ⟨ofNat_nearest hlt, (ofNat_nearest hlt).lt_infinite hlt⟩

theorem word_le {m : ℕ} (h : m ≤ maxWord) : m ≤ tenTo maxPower := h.trans (by decide +kernel)

/-- Positive numbers of moderate size move by half a unit in the last place at most. -/
theorem ofNat_within {n : ℕ} (hpos : 0 < n) (h : n ≤ tenTo maxPower) :
    Within (1 + halfUnit) (value (ofNat n)) n := by
  have hone : (1 : ℚ) ≤ n := by exact_mod_cast hpos
  have hsmall : (2 : ℚ) ^ (-1022 : ℤ) ≤ 1 := zpow_le_one_of_nonpos₀ one_le_two (by decide)
  exact (ofNat_nearest_of_le h).1.within (hsmall.trans hone)

/-- A positive number is not rounded to one below one. -/
theorem one_le_ofNat {n : ℕ} (hpos : 0 < n) (h : n ≤ tenTo maxPower) : 1 ≤ value (ofNat n) := by
  have hparts : Parts (1023 * twoTo 52) 1022 (twoTo 52) :=
    ⟨by decide, by decide, .inr (Nat.le_refl _)⟩
  have hone : value (1023 * twoTo 52) = 1 := by
    rw [hparts.value_eq, cast_twoTo, ← unit_add, unit_one]
  have hle : (1 : ℚ) ≤ n := by exact_mod_cast hpos
  rw [← hone]
  exact value_strictMono.monotone ((ofNat_nearest_of_le h).1.le_of_value_le (hone.trans_le hle))

theorem tenTo_le {n : ℕ} (h : n ≤ maxPower) : tenTo n ≤ tenTo maxPower := by
  rw [tenTo_eq, tenTo_eq]
  exact Nat.pow_le_pow_right (by decide) h

theorem powerOfTen_within {n : ℕ} (h : n ≤ maxPower) :
    Within (1 + halfUnit) (value (powerOfTen n)) (10 ^ n) := by
  rw [← cast_tenTo]
  exact ofNat_within (tenTo_pos n) (tenTo_le h)

theorem one_le_powerOfTen {n : ℕ} (h : n ≤ maxPower) : 1 ≤ value (powerOfTen n) :=
  one_le_ofNat (tenTo_pos n) (tenTo_le h)

/-- Division by one or more never leads out of range. -/
theorem quotient_finite {x y : Magnitude} (hx : x < infinite) (hy : 1 ≤ value y) :
    Nearest (value x / value y) (quotient x y) ∧ quotient x y < infinite := by
  obtain ⟨z, hnearest, hrounded⟩ := quotient_nearest x (zero_lt_one.trans_le hy)
  have hle : z ≤ x := hnearest.le_of_le_value (div_le_self (value_nonneg x) hy)
  have hfinite : z < infinite := Nat.lt_of_le_of_lt hle hx
  rw [hrounded, Nat.min_eq_left hfinite.le]
  exact ⟨hnearest, hfinite⟩

/-! ## Exact scaling -/

/-- A significand of 53 binary digits makes up a magnitude on every scale. -/
theorem exists_value (scale : ℕ) :
    ∀ a < twoTo 53, ∃ y : ℕ, value y = a * unit scale := by
  induction scale with
  | zero =>
    intro a ha
    have hparts : Parts a 0 a := ⟨by rw [Nat.zero_mul, Nat.zero_add], ha, .inl rfl⟩
    exact ⟨a, hparts.value_eq⟩
  | succ scale ih =>
    intro a ha
    have hdouble : twoTo 53 = twoTo 52 + twoTo 52 := rfl
    by_cases hlead : twoTo 52 ≤ a
    · have hparts : Parts ((scale + 1) * twoTo 52 + a) (scale + 1) a := ⟨rfl, ha, .inr hlead⟩
      exact ⟨_, hparts.value_eq⟩
    · -- too few digits for this scale: twice the significand stands one scale below
      obtain ⟨y, hy⟩ := ih (a + a) (by omega)
      refine ⟨y, ?_⟩
      rw [hy, unit_succ]
      push_cast
      ring

/-- Natural numbers that are so made up are not rounded. -/
theorem value_ofNat {n a j : ℕ} (ha : a < twoTo 53) (hn : n = a * twoTo j)
    (hle : n ≤ tenTo maxPower) : value (ofNat n) = n := by
  obtain ⟨y, hy⟩ := exists_value (1074 + j) a ha
  have hvalue : value y = n := by
    rw [hy, unit_add, unit_one, mul_one, hn, Nat.cast_mul, cast_twoTo]
  have hnearest := nearest_value y
  rw [hvalue] at hnearest
  rw [(ofNat_nearest_of_le hle).1.unique hnearest, hvalue]

/-- Up to `10 ^ 22`, powers of ten are not rounded. -/
theorem value_powerOfTen {n : ℕ} (h : n ≤ 22) : value (powerOfTen n) = 10 ^ n := by
  have hfive : 5 ^ n < twoTo 53 :=
    Nat.lt_of_le_of_lt (Nat.pow_le_pow_right (by decide) h) (by decide : 5 ^ 22 < twoTo 53)
  have hten : tenTo n = 5 ^ n * twoTo n := Nat.mul_pow 5 2 n
  have hle : n ≤ maxPower := h.trans (by decide)
  rw [powerOfTen, value_ofNat hfive hten (tenTo_le hle), cast_tenTo]

/-- Small digits and a small power of ten are scaled to the nearest double. -/
theorem scaled?_exact {m : ℕ} {e : ℤ} {x : ℕ} (hm : m < twoTo 53) (he : e.natAbs ≤ 22)
    (hx : Nearest (m * 10 ^ e) x) (hfinite : x < infinite) : scaled? m e = some x := by
  have hmle : m ≤ tenTo maxPower := word_le (hm.le.trans (by decide))
  have hone : m = m * twoTo 0 := by rw [twoTo_eq, pow_zero, Nat.mul_one]
  have hword : value (ofNat m) = m := value_ofNat hm hone hmle
  have hpower := value_powerOfTen he
  have hmax : e.natAbs ≤ maxPower := he.trans (by decide)
  unfold scaled?
  -- digits and power are both exact, so a single rounding is left in either case
  by_cases hneg : e < 0
  · have hexponent : e = -(e.natAbs : ℤ) := by omega
    obtain ⟨hnearest, -⟩ :=
      quotient_finite (ofNat_nearest_of_le hmle).2 (one_le_powerOfTen hmax)
    rw [hword, hpower, ← zpow_natCast, div_eq_mul_inv, ← zpow_neg, ← hexponent] at hnearest
    rw [if_pos hneg, shrink, if_pos hmax, hnearest.unique hx]
  · have hexponent : e = (e.natAbs : ℤ) := by omega
    obtain ⟨z, hnearest, hrounded⟩ := product_nearest (ofNat m) (powerOfTen e.natAbs)
    rw [hword, hpower, ← zpow_natCast, ← hexponent] at hnearest
    have hproduct : product (ofNat m) (powerOfTen e.natAbs) = x := by
      rw [hrounded, hnearest.unique hx, Nat.min_eq_left hfinite.le]
    have hfiniteProduct : Magnitude.isFinite x = true := decide_eq_true hfinite
    rw [if_neg hneg, grow?, if_pos hmax, hproduct]
    simp only [hfiniteProduct, if_true]

/-! ## One multiplication or division -/

/-- A product is at most two doubles away from where its exact value rounds to. -/
theorem grow?_drift {m n x : ℕ} (hm : 0 < m) (hword : m ≤ maxWord) (hn : n ≤ maxPower)
    (hx : Nearest (m * 10 ^ n) x) (hroom : x + 2 < infinite) :
    ∃ y, grow? (ofNat m) n = some y ∧ y < infinite ∧ y ≤ x + 2 ∧ x ≤ y + 2 := by
  obtain ⟨y, hnearest, hrounded⟩ := product_nearest (ofNat m) (powerOfTen n)
  have hhalf : (0 : ℚ) ≤ 1 + halfUnit := by norm_num [halfUnit]
  -- digits and power are each off by half a unit, which makes two factors
  have hwithin : Within ((1 + halfUnit) ^ 2) (value (ofNat m) * value (powerOfTen n))
      (m * 10 ^ n) := by
    rw [pow_two]
    exact (ofNat_within hm (word_le hword)).mul hhalf (value_nonneg _) (Nat.cast_nonneg m)
      (value_nonneg _) (by positivity) (powerOfTen_within hn)
  obtain ⟨hup, hdown⟩ := hx.drift hnearest hwithin
  have hfinite : y < infinite := Nat.lt_of_le_of_lt hup hroom
  refine ⟨y, ?_, hfinite, hup, hdown⟩
  have hisFinite : Magnitude.isFinite y = true := decide_eq_true hfinite
  rw [grow?, if_pos hn, hrounded, Nat.min_eq_left hfinite.le]
  simp only [hisFinite, if_true]

/-- So is a quotient by a power of ten in range. -/
theorem shrink_drift {m n x : ℕ} (hm : 0 < m) (hword : m ≤ maxWord) (hn : n ≤ maxPower)
    (hx : Nearest (m / 10 ^ n) x) :
    shrink (ofNat m) n < infinite ∧ shrink (ofNat m) n ≤ x + 2 ∧ x ≤ shrink (ofNat m) n + 2 := by
  have hone := one_le_powerOfTen hn
  obtain ⟨hnearest, hfinite⟩ := quotient_finite (ofNat_nearest_of_le (word_le hword)).2 hone
  have hhalf : (0 : ℚ) ≤ 1 + halfUnit := by norm_num [halfUnit]
  -- as for the product: one factor for the digits, one for the power
  have hwithin : Within ((1 + halfUnit) ^ 2) (value (ofNat m) / value (powerOfTen n))
      (m / 10 ^ n) := by
    rw [pow_two]
    exact (ofNat_within hm (word_le hword)).div hhalf (value_nonneg _) (Nat.cast_nonneg m)
      (zero_lt_one.trans_le hone) (by positivity) (powerOfTen_within hn)
  rw [shrink, if_pos hn]
  exact ⟨hfinite, hx.drift hnearest hwithin⟩

/-! ## Two divisions -/

/-- How far above a power of two the double nearest to the largest power of ten lies. -/
def lead : ℚ := 5010420900022432 / 2 ^ 52

theorem value_maxPower : value (powerOfTen maxPower) = (5010420900022432 * twoTo 971 : ℕ) := by
  have hbits : powerOfTen maxPower = 2045 * twoTo 52 + 5010420900022432 := by decide +kernel
  have hparts : Parts (powerOfTen maxPower) 2045 5010420900022432 :=
    ⟨hbits, by decide, .inr (by decide)⟩
  have hunit : unit 2045 = 2 ^ 971 := by rw [unit_add 1074 971, unit_one, mul_one]
  rw [hparts.value_eq, Nat.cast_mul, cast_twoTo, hunit]

theorem within_of_le {a b : ℕ} (hle : a * 10 ^ 18 ≤ b * (10 ^ 18 + 11))
    (hge : b * 10 ^ 18 ≤ a * (10 ^ 18 + 11)) : Within (1 + 11 / 10 ^ 18) (a : ℚ) b := by
  have hle : (a : ℚ) * 10 ^ 18 ≤ b * (10 ^ 18 + 11) := by exact_mod_cast hle
  have hge : (b : ℚ) * 10 ^ 18 ≤ a * (10 ^ 18 + 11) := by exact_mod_cast hge
  constructor
  · linarith
  · linarith

/-- That double is much closer to the power of ten than it might be. -/
theorem maxPower_within :
    Within (1 + 11 / 10 ^ 18) (value (powerOfTen maxPower)) (10 ^ maxPower) := by
  have hle : 5010420900022432 * twoTo 971 * 10 ^ 18 ≤ tenTo maxPower * (10 ^ 18 + 11) := by
    decide +kernel
  have hge : tenTo maxPower * 10 ^ 18 ≤ 5010420900022432 * twoTo 971 * (10 ^ 18 + 11) := by
    decide +kernel
  rw [← cast_tenTo maxPower, value_maxPower]
  exact within_of_le hle hge

/-- The divisor in units of the quotients below a power of two. -/
theorem unit_mul_maxPower (b : ℕ) :
    unit b * value (powerOfTen maxPower) = lead * 2 ^ (b + 2) * halfUnit := by
  have hunit : unit b * 2 ^ 971 = 2 ^ b / 2 ^ 103 := by
    rw [mul_comm, ← unit_add, eq_div_iff (by positivity), mul_comm, ← unit_add, ← mul_one (2 ^ b),
      ← unit_one, ← unit_add, Nat.add_assoc, Nat.add_comm]
  calc unit b * value (powerOfTen maxPower)
      = 5010420900022432 * (unit b * 2 ^ 971) := by
        rw [value_maxPower, Nat.cast_mul, cast_twoTo, Nat.cast_ofNat, mul_left_comm]
    _ = lead * 2 ^ (b + 2) * halfUnit := by
        rw [hunit, lead, halfUnit, pow_add]
        ring

/-- Multiplied back, the quotient is off by half a unit at most. -/
theorem quotient_maxPower_near {x : Magnitude} {b : ℕ} (hx : x < infinite)
    (hb : value x < lead * 2 ^ (b + 2)) :
    |value (quotient x (powerOfTen maxPower)) * value (powerOfTen maxPower) - value x| ≤
      lead * 2 ^ (b + 1) * halfUnit := by
  have hone : 1 ≤ value (powerOfTen maxPower) := one_le_powerOfTen (Nat.le_refl _)
  have hpos : 0 < value (powerOfTen maxPower) := zero_lt_one.trans_le hone
  have hunit := unit_mul_maxPower b
  have hhalf : (2 : ℚ) ^ 53 * halfUnit = 1 := by norm_num [halfUnit]
  -- the quotient has 53 binary digits in this unit, so it is rounded by half of it
  have hbelow : value x / value (powerOfTen maxPower) < 2 ^ 53 * unit b := by
    rw [div_lt_iff₀ hpos]
    calc value x < lead * 2 ^ (b + 2) * (2 ^ 53 * halfUnit) := by
          rw [hhalf, mul_one]
          exact hb
      _ = 2 ^ 53 * unit b * value (powerOfTen maxPower) := by
        rw [mul_assoc (2 ^ 53) (unit b), hunit]
        ring
  have hnear := (quotient_finite hx hone).1.abs_sub_le hbelow
  -- multiplied by the divisor the bound is one on the number itself
  have hscaled := mul_le_mul_of_nonneg_right hnear hpos.le
  rw [← abs_of_pos hpos, ← abs_mul, sub_mul, abs_of_pos hpos, div_mul_cancel₀ _ hpos.ne'] at hscaled
  refine hscaled.trans (le_of_eq ?_)
  rw [div_mul_eq_mul_div, hunit]
  ring

/-- A word lies between two powers of two. -/
theorem exists_lead {m : ℕ} (hm : 0 < m) : ∃ a : ℕ, (2 : ℚ) ^ a ≤ m ∧ (m : ℚ) < 2 ^ (a + 1) := by
  refine ⟨m.log2, ?_, ?_⟩
  · exact_mod_cast Nat.log2_self_le hm.ne'
  · exact_mod_cast (Nat.lt_log2_self : m < 2 ^ (m.log2 + 1))

/-- Reading the digits moves them by half a unit in the last place. -/
theorem ofNat_near {m a : ℕ} (hword : m ≤ maxWord) (hm : (m : ℚ) < 2 ^ (a + 1)) :
    |value (ofNat m) - m| ≤ 2 ^ a * halfUnit := by
  -- the scale on which a number below the given power of two is rounded
  have hend : 2 ^ 53 * unit (1022 + a) = 2 ^ (a + 1) := by
    rw [← unit_add, ← mul_one (2 ^ (a + 1)), ← unit_one, ← unit_add]
    congr 1
    omega
  have hhalf : (2 : ℚ) ^ 53 * halfUnit = 1 := by norm_num [halfUnit]
  have hnear := (ofNat_nearest_of_le (word_le hword)).1.abs_sub_le (hm.trans_eq hend.symm)
  have hunit : unit (1022 + a) / 2 = 2 ^ a * halfUnit := by
    calc unit (1022 + a) / 2 = 2 ^ 53 * unit (1022 + a) * halfUnit / 2 := by
          rw [mul_right_comm, hhalf, one_mul]
      _ = 2 ^ a * halfUnit := by
        rw [hend, pow_succ]
        ring
  rwa [hunit] at hnear

/-- Where the divisor lies just above a power of two, the two roundings together stay below two. -/
theorem quotient_maxPower_close {m : ℕ} (hm : 2 < m) (hword : m ≤ maxWord) :
    Within (1 + 19 / 10 * halfUnit)
      (value (quotient (ofNat m) (powerOfTen maxPower)) * value (powerOfTen maxPower)) m := by
  obtain ⟨a, hlow, hhigh⟩ := exists_lead (Nat.zero_lt_of_lt hm)
  have hread := abs_le.1 (ofNat_near hword hhigh)
  have hfinite := (ofNat_nearest_of_le (word_le hword)).2
  have hunit : halfUnit = 1 / 2 ^ 53 := rfl
  have hlead : lead = 5010420900022432 / 2 ^ 52 := rfl
  have hpow : (0 : ℚ) < 2 ^ a := pow_pos two_pos a
  have hnext : (2 : ℚ) ^ (a + 1) = 2 * 2 ^ a := pow_succ' 2 a
  set f := value (ofNat m) with hf
  rcases le_or_gt (lead * 2 ^ a) f with hcase | hcase
  · -- the quotient has as many binary digits before its point as the digits, less the divisor's
    rcases a with _ | b
    · have hthree : (3 : ℚ) ≤ m := by exact_mod_cast hm
      linarith
    · have hbelow : f < lead * 2 ^ (b + 2) := by
        rw [hlead, hunit] at *
        linarith
      have hdivided := abs_le.1 (quotient_maxPower_near hfinite hbelow)
      rw [hlead, hunit] at *
      constructor
      · linarith
      · linarith
  · -- it has one digit less
    rcases a with _ | _ | b
    · have hthree : (3 : ℚ) ≤ m := by exact_mod_cast hm
      linarith
    · have hthree : (3 : ℚ) ≤ m := by exact_mod_cast hm
      rw [hlead, hunit] at *
      linarith
    · have hdivided := abs_le.1 (quotient_maxPower_near hfinite hcase)
      have hhalf : (2 : ℚ) ^ (b + 2) = 2 * 2 ^ (b + 1) := pow_succ' 2 (b + 1)
      rw [hlead, hunit] at *
      constructor
      · linarith
      · linarith

/-- Dividing a word by the largest power of ten moves it as little as if only one had been rounded. -/
theorem quotient_maxPower_within {m : ℕ} (hm : 2 < m) (hword : m ≤ maxWord) :
    Within ((1 + halfUnit) ^ 2) (value (quotient (ofNat m) (powerOfTen maxPower)))
      (m / 10 ^ maxPower) := by
  have hpos : 0 < value (powerOfTen maxPower) :=
    zero_lt_one.trans_le (one_le_powerOfTen (Nat.le_refl _))
  have hnonneg : (0 : ℚ) ≤ 1 + 19 / 10 * halfUnit := by norm_num [halfUnit]
  have hdivided := (quotient_maxPower_close hm hword).div hnonneg
    (mul_nonneg (value_nonneg _) hpos.le) (Nat.cast_nonneg m) hpos (by positivity) maxPower_within
  rw [mul_div_cancel_right₀ _ hpos.ne'] at hdivided
  refine hdivided.mono ?_ (value_nonneg _) (by positivity)
  norm_num [halfUnit]

/-- The divisor differs so little from the power of ten that their ratio is almost one. -/
theorem ratio_maxPower_near : |1 - value (powerOfTen maxPower) / 10 ^ maxPower| ≤ 11 / 10 ^ 18 := by
  have hten : (0 : ℚ) < 10 ^ maxPower := by positivity
  have hclose := maxPower_within
  set t := value (powerOfTen maxPower)
  generalize (10 : ℚ) ^ maxPower = p at hten hclose ⊢
  have hup : t / p ≤ 1 + 11 / 10 ^ 18 := by
    rw [div_le_iff₀ hten]
    linarith [hclose.le]
  have hdown : 1 - 11 / 10 ^ 18 ≤ t / p := by
    rw [le_div_iff₀ hten]
    linarith [hclose.ge]
  exact abs_le.2 ⟨by linarith, by linarith⟩

/-- The two smallest digits leave so little that the error is no more than the least double. -/
theorem quotient_maxPower_small {m : ℕ} (hm : m ≤ 2) :
    |value (quotient (ofNat m) (powerOfTen maxPower)) - m / 10 ^ maxPower| ≤ unit 0 := by
  have hpos : 0 < value (powerOfTen maxPower) :=
    zero_lt_one.trans_le (one_le_powerOfTen (Nat.le_refl _))
  have hword : m ≤ tenTo maxPower := hm.trans (by decide +kernel)
  have hone : m = m * twoTo 0 := by rw [twoTo_eq, pow_zero, Nat.mul_one]
  have hread : value (ofNat m) = m :=
    value_ofNat (Nat.lt_of_le_of_lt hm (by decide)) hone hword
  have hle : (m : ℚ) ≤ 2 := by exact_mod_cast hm
  have hlead : lead = 5010420900022432 / 2 ^ 52 := rfl
  have hunit : halfUnit = 1 / 2 ^ 53 := rfl
  have hbelow : value (ofNat m) < lead * 2 ^ (0 + 2) := by
    rw [hread, hlead]
    linarith
  have hdivided := quotient_maxPower_near (ofNat_nearest_of_le hword).2 hbelow
  have hscale := unit_mul_maxPower 0
  rw [hread] at hdivided
  -- compared after multiplying by the divisor, whose own error hardly counts
  have hratio : |(m : ℚ) - m * (value (powerOfTen maxPower) / 10 ^ maxPower)| ≤
      2 * (11 / 10 ^ 18) := by
    rw [← mul_one_sub, abs_mul, Nat.abs_cast]
    exact mul_le_mul hle ratio_maxPower_near (abs_nonneg _) two_pos.le
  set q := value (quotient (ofNat m) (powerOfTen maxPower))
  set t := value (powerOfTen maxPower)
  generalize (10 : ℚ) ^ maxPower = p at hratio ⊢
  refine le_of_mul_le_mul_right ?_ hpos
  calc |q - m / p| * t = |q * t - m * (t / p)| := by
        rw [← abs_of_pos hpos, ← abs_mul, abs_of_pos hpos, sub_mul, div_mul_eq_mul_div,
          mul_div_assoc]
    _ ≤ |q * t - m| + |m - m * (t / p)| := abs_sub_le _ _ _
    _ ≤ unit 0 * t := by
        rw [hscale]
        rw [hlead, hunit] at *
        linarith

/-- A division in two steps is as good. -/
theorem shrink_twice_drift {m n x : ℕ} (hm : 0 < m) (hword : m ≤ maxWord) (hn : maxPower < n)
    (hrange : n ≤ maxPower + 22) (hx : Nearest (m / 10 ^ n) x) :
    shrink (ofNat m) n < infinite ∧ shrink (ofNat m) n ≤ x + 2 ∧ x ≤ shrink (ofNat m) n + 2 := by
  -- the first division takes the greatest power there is, the second one what is left of it
  obtain ⟨j, rfl⟩ : ∃ j, n = maxPower + j := ⟨n - maxPower, by omega⟩
  have hj : j ≤ 22 := by omega
  have hjmax : j ≤ maxPower := hj.trans (by decide)
  have hfinite := (ofNat_nearest_of_le (word_le hword)).2
  obtain ⟨-, hfirst⟩ := quotient_finite hfinite (one_le_powerOfTen (Nat.le_refl maxPower))
  obtain ⟨hnearest, hsecond⟩ := quotient_finite hfirst (one_le_powerOfTen hjmax)
  rw [value_powerOfTen hj] at hnearest
  rw [pow_add, ← div_div] at hx
  have hnonzero : ofNat m ≠ 0 := by
    intro hzero
    have hone := one_le_ofNat hm (word_le hword)
    rw [hzero, value_zero] at hone
    linarith
  have hsteps : shrink (ofNat m) (maxPower + j) =
      quotient (quotient (ofNat m) (powerOfTen maxPower)) (powerOfTen j) := by
    rw [shrink, if_neg (by omega), if_neg hnonzero, Nat.add_sub_cancel_left, shrink, if_pos hjmax]
  rw [hsteps]
  refine ⟨hsecond, ?_⟩
  have hpos : (0 : ℚ) < 10 ^ j := by positivity
  -- for one and two the relative bound fails; their quotients are so small that units count
  rcases Nat.lt_or_ge 2 m with hlarge | hsmall
  · refine hx.drift hnearest ?_
    have hexact : Within 1 ((10 : ℚ) ^ j) (10 ^ j) := ⟨by rw [mul_one], by rw [mul_one]⟩
    have hdivided := (quotient_maxPower_within hlarge hword).div (by positivity) (value_nonneg _)
      (by positivity) hpos hpos hexact
    rwa [mul_one] at hdivided
  · refine hx.drift_of_abs hnearest ?_
    rw [← sub_div, abs_div, abs_of_pos hpos]
    exact (div_le_self (abs_nonneg _) (one_le_pow₀ (by norm_num))).trans
      (quotient_maxPower_small hsmall)

/-- The power of ten in a finite number is in range. -/
theorem power_le {m n x : ℕ} (hm : 0 < m) (hx : Nearest (m * 10 ^ n) x) (hfinite : x < infinite) :
    n ≤ maxPower := by
  -- already the next power of ten is beyond the largest double
  have hbound : (twoTo 54 - 1) * twoTo 970 < tenTo (maxPower + 1) := by decide +kernel
  have hle : (m : ℚ) * 10 ^ n ≤ mid (infinite - 1) :=
    hx.below.1.trans (mid_le_mid (Nat.le_pred_of_lt hfinite))
  rw [mid_last, ← cast_tenTo, ← Nat.cast_mul, Nat.cast_le] at hle
  by_contra hgt
  have hpow : tenTo (maxPower + 1) ≤ tenTo n := by
    rw [tenTo_eq, tenTo_eq]
    exact Nat.pow_le_pow_right (by decide) (Nat.not_le.1 hgt)
  have hmul : tenTo n ≤ m * tenTo n := Nat.le_mul_of_pos_left _ hm
  omega

/-- What a numeral is read as lies at most two doubles away from the one nearest to it. -/
theorem scaled?_drift {m : ℕ} {e : ℤ} {x : ℕ} (hm : 0 < m) (hword : m ≤ maxWord) (he : -330 ≤ e)
    (hx : Nearest (m * 10 ^ e) x) (hroom : x + 2 < infinite) :
    ∃ y, scaled? m e = some y ∧ y < infinite ∧ y ≤ x + 2 ∧ x ≤ y + 2 := by
  unfold scaled?
  -- negative powers divide, once or twice, the others multiply
  by_cases hneg : e < 0
  · have hexponent : e = -(e.natAbs : ℤ) := by omega
    have hquotient : (m : ℚ) * 10 ^ e = m / 10 ^ e.natAbs := by
      rw [div_eq_mul_inv, ← zpow_natCast, ← zpow_neg, ← hexponent]
    rw [hquotient] at hx
    rw [if_pos hneg]
    refine ⟨_, rfl, ?_⟩
    by_cases hrange : e.natAbs ≤ maxPower
    · exact shrink_drift hm hword hrange hx
    · exact shrink_twice_drift hm hword (by omega) (by simp only [maxPower]; omega) hx
  · have hexponent : e = (e.natAbs : ℤ) := by omega
    rw [if_neg hneg]
    rw [hexponent, zpow_natCast] at hx
    exact grow?_drift hm hword (power_le hm hx (by omega)) hx hroom

/-! ## Numbers out of range -/

theorem grow?_finite {x y : Magnitude} {n : ℕ} (hx : x < infinite) (h : grow? x n = some y) :
    y < infinite := by
  unfold grow? at h
  split at h
  · dsimp only at h
    split at h
    case isTrue hfinite =>
      cases h
      exact of_decide_eq_true hfinite
    case isFalse => cases h
  · split at h
    · cases h
      exact hx
    · cases h

/-- Digits and a power of ten that do not divide give a finite double, or stand for a number beyond
the third largest one. -/
theorem scaled?_or_beyond {m k : ℕ} (hm : 0 < m) (hword : m ≤ maxWord) :
    (∃ y, scaled? m k = some y ∧ y < infinite) ∨
      (scaled? m k = none ∧ value (infinite - 3) < m * 10 ^ k) := by
  have hgrow : scaled? m k = grow? (ofNat m) k := by
    rw [scaled?, if_neg (by omega), Int.natAbs_natCast]
  rcases hscaled : scaled? m k with _ | y
  · right
    refine ⟨rfl, ?_⟩
    -- a number up to that double would have been scaled to a finite one nearby
    by_contra hle
    obtain ⟨x, hnearest, -⟩ := ofRatio_nearest (m * tenTo k) Nat.one_pos
    rw [Nat.cast_mul, cast_tenTo, Nat.cast_one, div_one] at hnearest
    have hx : x ≤ infinite - 3 := hnearest.le_of_le_value (not_lt.1 hle)
    have hroom : x + 2 < infinite :=
      Nat.lt_of_le_of_lt (Nat.add_le_add_right hx 2) (by decide)
    rw [← zpow_natCast] at hnearest
    obtain ⟨y, hy, -⟩ := scaled?_drift hm hword (by omega) hnearest hroom
    rw [hscaled] at hy
    cases hy
  · left
    rw [hgrow] at hscaled
    exact ⟨y, rfl, grow?_finite (ofNat_nearest_of_le (word_le hword)).2 hscaled⟩

end Numeral

end StreamControl.Json
