import Mathlib.Algebra.Order.Archimedean.Basic
import StreamControl.Double.Rounding
import StreamControl.Proofs.Double.Values

/-!
# Rounding is to the nearest double

A number rounds to a magnitude if it lies between the half-way points on its two sides; on one of
them only if the magnitude is even (`Magnitude.Nearest`).  This determines the magnitude
(`Nearest.unique`), and `Magnitude.ofRatio` finds it, up to the largest finite one
(`ofRatio_nearest`).

Rounding moves a number by half a unit of its scale at most (`Nearest.abs_sub_le`) and so, unless it
is very small, in proportion to itself (`Nearest.within`).  A number that was rounded twice on the way
still rounds to the same magnitude or one of the two next to it on either side (`Nearest.drift`).
-/

namespace StreamControl

namespace Magnitude

/-! ## Nearest magnitudes -/

/-- A number rounds to a magnitude: a number half-way between two goes to the even one. -/
structure Nearest (v : ℚ) (y : ℕ) : Prop where
  nonneg : 0 ≤ v
  above : ∀ x, y = x + 1 → mid x ≤ v ∧ (v = mid x → y % 2 = 0)
  below : v ≤ mid y ∧ (v = mid y → y % 2 = 0)

namespace Nearest

variable {v w : ℚ} {x y z : ℕ}

/-- A number below a half-way point rounds no further up. -/
theorem le_of_lt_mid (h : Nearest v y) (hv : v < mid x) : y ≤ x := by
  by_contra hlt
  obtain ⟨z, rfl⟩ : ∃ z, y = z + 1 := ⟨y - 1, by omega⟩
  have hmid : mid x ≤ mid z := mid_le_mid (by omega)
  have habove := (h.above z rfl).1
  linarith

/-- A number above a half-way point rounds further up. -/
theorem lt_of_mid_lt (h : Nearest v y) (hv : mid x < v) : x < y := by
  by_contra hle
  have hmid : mid y ≤ mid x := mid_le_mid (by omega)
  have hbelow := h.below.1
  linarith

/-- Rounding up stops at numbers with a magnitude of their own. -/
theorem le_of_le_value (h : Nearest v y) (hv : v ≤ value x) : y ≤ x :=
  h.le_of_lt_mid (hv.trans_lt (value_lt_mid x))

/-- Rounding down stops at numbers with a magnitude of their own. -/
theorem le_of_value_le (h : Nearest v y) (hv : value x ≤ v) : x ≤ y := by
  rcases x with _ | x
  · exact Nat.zero_le y
  · exact h.lt_of_mid_lt ((mid_lt_value_succ x).trans_le hv)

/-- A number rounds to one magnitude only. -/
theorem unique (h : Nearest v y) (h' : Nearest v z) : y = z := by
  -- if the two differ, they are neighbours and both even
  have hordered : ∀ {y z : ℕ}, Nearest v y → Nearest v z → ¬ y < z := by
    intro y z h h' hlt
    obtain ⟨x, rfl⟩ : ∃ x, z = x + 1 := ⟨z - 1, by omega⟩
    obtain ⟨habove, hz⟩ := h'.above x rfl
    obtain ⟨hbelow, hy⟩ := h.below
    have hmid : mid y ≤ mid x := mid_le_mid (by omega)
    have hpoint : mid y = mid x := by linarith
    obtain rfl : y = x := mid_strictMono.injective hpoint
    have heven := hy (by linarith)
    have heven' := hz (by linarith)
    omega
  exact Nat.le_antisymm (Nat.not_lt.1 (hordered h' h)) (Nat.not_lt.1 (hordered h h'))

end Nearest

/-- What rounds to a magnitude other than zero. -/
theorem nearest_succ_iff {v : ℚ} {x : ℕ} :
    Nearest v (x + 1) ↔
      if (x + 1) % 2 = 0 then mid x ≤ v ∧ v ≤ mid (x + 1) else mid x < v ∧ v < mid (x + 1) := by
  have hpos := mid_pos x
  -- an even magnitude takes both half-way points, an odd one neither
  split
  case isTrue heven =>
    constructor
    · intro h
      exact ⟨(h.above x rfl).1, h.below.1⟩
    · rintro ⟨hlow, hhigh⟩
      refine ⟨hpos.le.trans hlow, ?_, hhigh, fun _ => heven⟩
      rintro z hz
      obtain rfl : x = z := Nat.succ.inj hz
      exact ⟨hlow, fun _ => heven⟩
  case isFalse hodd =>
    constructor
    · intro h
      obtain ⟨hlow, hlow'⟩ := h.above x rfl
      obtain ⟨hhigh, hhigh'⟩ := h.below
      exact ⟨hlow.lt_of_ne' (mt hlow' hodd), hhigh.lt_of_ne (mt hhigh' hodd)⟩
    · rintro ⟨hlow, hhigh⟩
      refine ⟨(hpos.trans hlow).le, ?_, hhigh.le, fun h => absurd h hhigh.ne⟩
      rintro z hz
      obtain rfl : x = z := Nat.succ.inj hz
      exact ⟨hlow.le, fun h => absurd h hlow.ne'⟩

/-- The number of a magnitude rounds to it. -/
theorem nearest_value (x : Magnitude) : Nearest (value x) x where
  nonneg := value_nonneg x
  above := by
    rintro z rfl
    have hlt := mid_lt_value_succ z
    exact ⟨hlt.le, fun h => absurd h hlt.ne'⟩
  below := ⟨(value_lt_mid x).le, fun h => absurd h (value_lt_mid x).ne⟩

/-! ## Rounding a quotient -/

/-- A rounded quotient lies within one half of the quotient, and is even if it is as far away. -/
theorem roundQuotient_spec (a : ℕ) {b : ℕ} (hb : 0 < b) :
    let r := roundQuotient a b
    (2 * (r * b) ≤ 2 * a + b ∧ (2 * (r * b) = 2 * a + b → r % 2 = 0)) ∧
      (2 * a ≤ 2 * (r * b) + b ∧ (2 * a = 2 * (r * b) + b → r % 2 = 0)) := by
  intro r
  have hdiv : a / b * b + a % b = a := Nat.div_add_mod' a b
  have hmod : a % b < b := Nat.mod_lt a hb
  have hsucc : (a / b + 1) * b = a / b * b + b := Nat.succ_mul _ _
  simp only [r, roundQuotient]
  -- the remainder is below, at or above one half of the divisor
  rcases hcompare : compare (2 * (a % b)) b with _ | _ | _
  · have hlt := Nat.compare_eq_lt.1 hcompare
    dsimp only
    omega
  · have heq := Nat.compare_eq_eq.1 hcompare
    dsimp only
    split
    · omega
    · rw [hsucc]
      omega
  · have hgt := Nat.compare_eq_gt.1 hcompare
    dsimp only
    rw [hsucc]
    omega

/-- The same for the quotient as a number. -/
theorem roundQuotient_near (a : ℕ) {b : ℕ} (hb : 0 < b) :
    let r := roundQuotient a b
    ((r : ℚ) - 1 / 2 ≤ a / b ∧ ((a : ℚ) / b = r - 1 / 2 → r % 2 = 0)) ∧
      ((a : ℚ) / b ≤ r + 1 / 2 ∧ ((a : ℚ) / b = r + 1 / 2 → r % 2 = 0)) := by
  intro r
  have hb' : (0 : ℚ) < b := Nat.cast_pos.2 hb
  obtain ⟨⟨habove, habove'⟩, hbelow, hbelow'⟩ := roundQuotient_spec a hb
  have habove : (2 : ℚ) * (r * b) ≤ 2 * a + b := by exact_mod_cast habove
  have hbelow : (2 : ℚ) * a ≤ 2 * (r * b) + b := by exact_mod_cast hbelow
  refine ⟨⟨?_, fun h => habove' ?_⟩, ?_, fun h => hbelow' ?_⟩
  · rw [le_div_iff₀ hb']
    linarith
  · rw [div_eq_iff hb'.ne'] at h
    have hreal : (2 : ℚ) * (r * b) = 2 * a + b := by linarith
    exact_mod_cast hreal
  · rw [div_le_iff₀ hb']
    linarith
  · rw [div_eq_iff hb'.ne'] at h
    have hreal : (2 : ℚ) * a = 2 * (r * b) + b := by linarith
    exact_mod_cast hreal

/-- Whether a quotient reaches a power of two can be told by natural numbers. -/
theorem twoTo_le_iff (num : ℕ) {den : ℕ} (hden : 0 < den) (e : ℤ) :
    den * twoTo e.toNat ≤ num * twoTo (-e).toNat ↔ (2 : ℚ) ^ e ≤ num / den := by
  have hden' : (0 : ℚ) < den := Nat.cast_pos.2 hden
  have hpow : (0 : ℚ) < 2 ^ (-e).toNat := by positivity
  rw [← pow_toNat_div 2 two_ne_zero e, div_le_div_iff₀ hpow hden', ← cast_twoTo, ← cast_twoTo,
    ← Nat.cast_mul, ← Nat.cast_mul, Nat.cast_le, Nat.mul_comm]

/-- The greatest power of two that a positive number reaches. -/
theorem log2_spec {n : ℕ} (hn : 0 < n) :
    (2 : ℚ) ^ (n.log2 : ℤ) ≤ n ∧ (n : ℚ) < 2 ^ ((n.log2 : ℤ) + 1) := by
  constructor
  · rw [zpow_natCast]
    exact_mod_cast Nat.log2_self_le hn.ne'
  · rw [← Nat.cast_succ, zpow_natCast]
    exact_mod_cast Nat.lt_log2_self

/-- The greatest power of two that a positive quotient reaches. -/
theorem binaryOrder_spec {num den : ℕ} (hnum : 0 < num) (hden : 0 < den) :
    (2 : ℚ) ^ binaryOrder num den ≤ num / den ∧
      (num : ℚ) / den < 2 ^ (binaryOrder num den + 1) := by
  have hden' : (0 : ℚ) < den := Nat.cast_pos.2 hden
  obtain ⟨hnumLow, hnumHigh⟩ := log2_spec hnum
  obtain ⟨hdenLow, hdenHigh⟩ := log2_spec hden
  -- the two logarithms leave a factor of four, and one comparison decides
  set e : ℤ := (num.log2 : ℤ) - den.log2 with he
  have hhigh : (num : ℚ) / den < 2 ^ (e + 1) := by
    rw [div_lt_iff₀ hden']
    calc (num : ℚ) < 2 ^ ((num.log2 : ℤ) + 1) := hnumHigh
      _ = 2 ^ (e + 1) * 2 ^ (den.log2 : ℤ) := by
        rw [← zpow_add₀ two_ne_zero, he]
        congr 1
        ring
      _ ≤ 2 ^ (e + 1) * den := by gcongr
  have hlow : (2 : ℚ) ^ (e - 1) ≤ num / den := by
    rw [le_div_iff₀ hden']
    calc (2 : ℚ) ^ (e - 1) * den ≤ 2 ^ (e - 1) * 2 ^ ((den.log2 : ℤ) + 1) := by gcongr
      _ = 2 ^ (num.log2 : ℤ) := by
        rw [← zpow_add₀ two_ne_zero, he]
        congr 1
        ring
      _ ≤ num := hnumLow
  unfold binaryOrder
  simp only [← he]
  by_cases hreached : den * twoTo e.toNat ≤ num * twoTo (-e).toNat
  · rw [if_pos hreached]
    exact ⟨(twoTo_le_iff num hden e).1 hreached, hhigh⟩
  · rw [if_neg hreached]
    have hbelow : (num : ℚ) / den < 2 ^ e :=
      not_le.1 fun h => hreached ((twoTo_le_iff num hden e).2 h)
    refine ⟨hlow, ?_⟩
    rw [Int.sub_add_cancel]
    exact hbelow

/-! ## Rounding a number -/

/-- A number that reaches the half-way point below a significand, in units of its scale, reaches the
one below the magnitude. -/
theorem mid_le_of_scale {w : ℚ} {scale less x : ℕ} (hx : x = scale * twoTo 52 + less)
    (hfull : less < twoTo 53) (hreached : scale = 0 ∨ 2 ^ 52 ≤ w)
    (hlead : scale = 0 ∨ twoTo 52 ≤ less + 1) (hw : (less : ℚ) + 1 / 2 ≤ w) :
    mid x ≤ w * unit scale ∧ (w * unit scale = mid x → w = less + 1 / 2) := by
  have hunit := unit_pos scale
  -- the half-way point is on the same scale, unless the magnitude is the first of its scale
  by_cases hsame : scale = 0 ∨ twoTo 52 ≤ less
  · have hparts : Parts x scale less := ⟨hx, hfull, hsame⟩
    rw [hparts.mid_eq]
    refine ⟨mul_le_mul_of_nonneg_right hw hunit.le, fun h => ?_⟩
    exact mul_right_cancel₀ hunit.ne' h
  · have hscale : scale ≠ 0 := fun h => hsame (.inl h)
    have hfirst : less + 1 = twoTo 52 := by
      have hreached := hlead.resolve_left hscale
      have hbelow : less < twoTo 52 := Nat.not_le.1 fun h => hsame (.inr h)
      omega
    have hnext : x + 1 = scale * twoTo 52 + twoTo 52 := by rw [hx, Nat.add_assoc, hfirst]
    have hmid := mid_lt_value_succ x
    rw [value_of_le hnext (by decide) (.inr (Nat.le_refl _)), cast_twoTo] at hmid
    have hstrict := hmid.trans_le
      (mul_le_mul_of_nonneg_right (hreached.resolve_left hscale) hunit.le)
    exact ⟨hstrict.le, fun h => absurd h hstrict.ne'⟩

/-- A number up to the half-way point above a significand is so above the magnitude. -/
theorem le_mid_of_scale {w : ℚ} {scale significand x : ℕ}
    (hx : x = scale * twoTo 52 + significand) (hle : significand ≤ twoTo 53)
    (hlead : scale = 0 ∨ twoTo 52 ≤ significand) (hend : w < 2 ^ 53)
    (hw : w ≤ significand + 1 / 2) :
    w * unit scale ≤ mid x ∧ (w * unit scale = mid x → w = significand + 1 / 2) := by
  have hunit := unit_pos scale
  by_cases hfull : significand < twoTo 53
  · have hparts : Parts x scale significand := ⟨hx, hfull, hlead⟩
    rw [hparts.mid_eq]
    refine ⟨mul_le_mul_of_nonneg_right hw hunit.le, fun h => ?_⟩
    exact mul_right_cancel₀ hunit.ne' h
  · -- a full significand has run over into the next scale, where the half-way point lies higher
    have hlast : (significand : ℚ) = 2 ^ 53 := by
      rw [Nat.le_antisymm hle (Nat.not_lt.1 hfull), cast_twoTo]
    have hmid := value_lt_mid x
    rw [value_of_le hx hle hlead, hlast] at hmid
    have hstrict := (mul_lt_mul_of_pos_right hend hunit).trans hmid
    exact ⟨hstrict.le, fun h => absurd h hstrict.ne⟩

/-- A significand that is nearest to a number in units of its scale makes up the nearest magnitude. -/
theorem nearest_of_scale {w : ℚ} {scale significand : ℕ} (hnonneg : 0 ≤ w)
    (hlow : scale = 0 ∨ 2 ^ 52 ≤ w) (hhigh : w < 2 ^ 53)
    (habove : (significand : ℚ) - 1 / 2 ≤ w ∧ (w = significand - 1 / 2 → significand % 2 = 0))
    (hbelow : w ≤ significand + 1 / 2 ∧ (w = significand + 1 / 2 → significand % 2 = 0)) :
    Nearest (w * unit scale) (scale * twoTo 52 + significand) := by
  have heven := scale_parity scale significand
  -- the bounds on the number carry over to its significand, up to the half that rounding adds
  have hle : significand ≤ twoTo 53 := by
    by_contra hgt
    have hreal : ((twoTo 53 : ℕ) : ℚ) + 1 ≤ significand := by exact_mod_cast Nat.not_le.1 hgt
    rw [cast_twoTo] at hreal
    linarith [habove.1]
  have hlead : scale = 0 ∨ twoTo 52 ≤ significand := by
    refine hlow.imp_right fun hreached => ?_
    by_contra hlt
    have hreal : (significand : ℚ) + 1 ≤ (twoTo 52 : ℕ) := by exact_mod_cast Nat.not_le.1 hlt
    rw [cast_twoTo] at hreal
    linarith [hbelow.1]
  refine ⟨mul_nonneg hnonneg (unit_pos scale).le, ?_, ?_⟩
  · intro x hx
    -- there is a magnitude below, so the significand can be lowered by one
    have hnonzero : significand ≠ 0 := by
      rintro rfl
      rcases hlead with rfl | hlead
      · simp at hx
      · exact absurd hlead (by decide)
    obtain ⟨less, rfl⟩ : ∃ less, significand = less + 1 := ⟨significand - 1, by omega⟩
    have hhalf : ((less + 1 : ℕ) : ℚ) - 1 / 2 = less + 1 / 2 := by
      push_cast
      ring
    rw [hhalf] at habove
    obtain ⟨hmid, htie⟩ := mid_le_of_scale (Nat.succ.inj hx).symm hle hlow hlead habove.1
    rw [heven]
    exact ⟨hmid, fun h => habove.2 (htie h)⟩
  · obtain ⟨hmid, htie⟩ := le_mid_of_scale rfl hle hlead hhigh hbelow.1
    rw [heven]
    exact ⟨hmid, fun h => hbelow.2 (htie h)⟩

theorem nearest_zero : Nearest 0 0 := by
  have hvalue := nearest_value 0
  rw [value_zero] at hvalue
  exact hvalue

/-- In units of its scale a number has 53 binary digits before the point, fewer only on the lowest
scale. -/
theorem scale_digits {v : ℚ} {order : ℤ} (hlow : 2 ^ order ≤ v) (hhigh : v < 2 ^ (order + 1)) :
    let q := max (order - 52) (-1074)
    (q = -1074 ∨ 2 ^ 52 ≤ v / 2 ^ q) ∧ v / 2 ^ q < 2 ^ 53 := by
  intro q
  have hq : q = max (order - 52) (-1074) := rfl
  have hpos : (0 : ℚ) < 2 ^ q := zpow_pos two_pos q
  constructor
  · by_cases hlowest : order - 52 ≤ -1074
    · left
      omega
    · right
      have hexponent : order = ((52 : ℕ) : ℤ) + q := by
        push_cast
        omega
      rw [hexponent, zpow_add₀ two_ne_zero, zpow_natCast] at hlow
      rw [le_div_iff₀ hpos]
      exact hlow
  · -- the scale is at most 52 below the leading digit, on the lowest one still less
    have hexponent : order + 1 ≤ ((53 : ℕ) : ℤ) + q := by
      push_cast
      omega
    have hpow : (2 : ℚ) ^ (order + 1) ≤ 2 ^ 53 * 2 ^ q := by
      rw [← zpow_natCast 2 53, ← zpow_add₀ two_ne_zero]
      exact zpow_le_zpow_right₀ one_le_two hexponent
    rw [div_lt_iff₀ hpos]
    exact hhigh.trans_le hpow

/-- A quotient is rounded to the nearest magnitude, if there is a finite one. -/
theorem ofRatio_nearest (num : ℕ) {den : ℕ} (hden : 0 < den) :
    ∃ y, Nearest ((num : ℚ) / den) y ∧ ofRatio num den = min y infinite := by
  rcases Nat.eq_zero_or_pos num with rfl | hnum
  · refine ⟨0, ?_, ?_⟩
    · rw [Nat.cast_zero, zero_div]
      exact nearest_zero
    · rw [ofRatio, if_pos rfl, Nat.zero_min]
  · obtain ⟨hleast, hgreatest⟩ := binaryOrder_spec hnum hden
    obtain ⟨hlow, hhigh⟩ := scale_digits hleast hgreatest
    unfold ofRatio
    rw [if_neg hnum.ne']
    set q : ℤ := max (binaryOrder num den - 52) (-1074)
    refine ⟨_, ?_, rfl⟩
    set scale := (q + 1074).toNat
    have hscale : (scale : ℤ) - 1074 = q := by omega
    have hunit : unit scale = 2 ^ q := by rw [unit, hscale]
    have hqpos : (0 : ℚ) < 2 ^ q := zpow_pos two_pos q
    set a := num * twoTo (-q).toNat with ha
    set b := den * twoTo q.toNat with hb
    have hbpos : 0 < b := Nat.mul_pos hden (twoTo_pos _)
    -- the quotient that is rounded is the number in units of its scale
    have hrounded : (num : ℚ) / den = a / b * unit scale := by
      have hden' : (den : ℚ) ≠ 0 := Nat.cast_ne_zero.2 hden.ne'
      rw [hunit, ha, hb, ← pow_toNat_div 2 two_ne_zero q, Nat.cast_mul, Nat.cast_mul, cast_twoTo,
        cast_twoTo]
      field_simp
    have hscaled : (num : ℚ) / den / 2 ^ q = a / b := by
      rw [hrounded, hunit, mul_div_assoc, div_self hqpos.ne', mul_one]
    rw [hscaled] at hlow hhigh
    obtain ⟨habove, hbelow⟩ := roundQuotient_near a hbpos
    rw [hrounded]
    exact nearest_of_scale (by positivity) (hlow.imp_left fun h => by omega) hhigh habove hbelow

/-! ## How far rounding goes -/

namespace Nearest

variable {v : ℚ} {y : ℕ}

/-- Below the end of a scale, rounding moves a number by half a unit at most. -/
theorem abs_sub_le (h : Nearest v y) {scale : ℕ} (hv : v < 2 ^ 53 * unit scale) :
    |value y - v| ≤ unit scale / 2 := by
  -- up to the end of the scale, gaps are units or smaller
  set last := scale * twoTo 52 + (twoTo 53 - 1) with hlast
  have hparts : Parts last scale (twoTo 53 - 1) := ⟨rfl, by decide, .inr (by decide)⟩
  have hend : value (last + 1) = 2 ^ 53 * unit scale := by
    rw [hparts.value_succ, ← cast_twoTo, Nat.cast_sub (twoTo_pos 53), Nat.cast_one, sub_add_cancel]
  have hgap : ∀ x ≤ last, gap x ≤ unit scale := by
    intro x hx
    rw [← hparts.gap_eq]
    exact gap_mono hx
  have hy : y ≤ last + 1 := h.le_of_le_value (hend ▸ hv.le)
  rw [abs_le]
  constructor
  · have hbelow := h.below.1
    rcases Nat.lt_or_ge y (last + 1) with hlt | hge
    · have hsmall := hgap y (by omega)
      rw [gap] at hsmall
      rw [mid] at hbelow
      linarith
    · have hyEq : y = last + 1 := Nat.le_antisymm hy hge
      have hunit := unit_pos scale
      rw [hyEq, hend]
      linarith
  · rcases y with _ | x
    · have hzero := value_zero
      have hnonneg := h.nonneg
      have hunit := unit_pos scale
      rw [hzero]
      linarith
    · have habove := (h.above x rfl).1
      have hsmall := hgap x (by omega)
      rw [gap] at hsmall
      rw [mid] at habove
      linarith

end Nearest

/-- Unless it is very small, a number has all digits on its scale. -/
theorem exists_scale {v : ℚ} (hv : 2 ^ (-1022 : ℤ) ≤ v) :
    ∃ scale, 2 ^ 52 * unit scale ≤ v ∧ v < 2 ^ 53 * unit scale := by
  have hpos : 0 < v := (zpow_pos two_pos _).trans_le hv
  -- the scale is read off the power of two below the number
  obtain ⟨e, hlow, hhigh⟩ := exists_mem_Ico_zpow hpos (one_lt_two : (1 : ℚ) < 2)
  have he : -1022 < e + 1 := by
    by_contra hle
    have hpow : (2 : ℚ) ^ (e + 1) ≤ 2 ^ (-1022 : ℤ) :=
      zpow_le_zpow_right₀ one_le_two (not_lt.1 hle)
    linarith
  refine ⟨(e + 1022).toNat, ?_, ?_⟩
  · rw [← zpow_natCast 2 52, unit, ← zpow_add₀ two_ne_zero]
    refine le_trans (le_of_eq ?_) hlow
    congr 1
    push_cast
    omega
  · rw [← zpow_natCast 2 53, unit, ← zpow_add₀ two_ne_zero]
    refine lt_of_lt_of_eq hhigh ?_
    congr 1
    push_cast
    omega

/-- Two numbers differ by a factor at most, in either direction. -/
structure Within (factor a b : ℚ) : Prop where
  le : a ≤ b * factor
  ge : b ≤ a * factor

namespace Within

variable {f g a b c d : ℚ}

theorem symm (h : Within f a b) : Within f b a := ⟨h.ge, h.le⟩

theorem mono (hfg : f ≤ g) (ha : 0 ≤ a) (hb : 0 ≤ b) (h : Within f a b) : Within g a b :=
  ⟨h.le.trans (mul_le_mul_of_nonneg_left hfg hb), h.ge.trans (mul_le_mul_of_nonneg_left hfg ha)⟩

theorem mul (hf : 0 ≤ f) (ha : 0 ≤ a) (hb : 0 ≤ b) (hc : 0 ≤ c) (hd : 0 ≤ d) (h : Within f a b)
    (h' : Within g c d) : Within (f * g) (a * c) (b * d) where
  le := by
    calc a * c ≤ b * f * (d * g) := mul_le_mul h.le h'.le hc (mul_nonneg hb hf)
      _ = b * d * (f * g) := by ring
  ge := by
    calc b * d ≤ a * f * (c * g) := mul_le_mul h.ge h'.ge hd (mul_nonneg ha hf)
      _ = a * c * (f * g) := by ring

theorem inv (hc : 0 < c) (hd : 0 < d) (h : Within g c d) : Within g c⁻¹ d⁻¹ where
  le := by
    rw [inv_le_iff_one_le_mul₀ hc]
    calc 1 = d⁻¹ * d := (inv_mul_cancel₀ hd.ne').symm
      _ ≤ d⁻¹ * (c * g) := mul_le_mul_of_nonneg_left h.ge (inv_nonneg.2 hd.le)
      _ = d⁻¹ * g * c := by ring
  ge := by
    rw [inv_le_iff_one_le_mul₀ hd]
    calc 1 = c⁻¹ * c := (inv_mul_cancel₀ hc.ne').symm
      _ ≤ c⁻¹ * (d * g) := mul_le_mul_of_nonneg_left h.le (inv_nonneg.2 hc.le)
      _ = c⁻¹ * g * d := by ring

theorem div (hf : 0 ≤ f) (ha : 0 ≤ a) (hb : 0 ≤ b) (hc : 0 < c) (hd : 0 < d) (h : Within f a b)
    (h' : Within g c d) : Within (f * g) (a / c) (b / d) := by
  rw [div_eq_mul_inv, div_eq_mul_inv]
  exact h.mul hf ha hb (inv_nonneg.2 hc.le) (inv_nonneg.2 hd.le) (h'.inv hc hd)

end Within

namespace Nearest

variable {v w : ℚ} {x y : ℕ}

/-- Unless it is very small, a number moves by half a unit in the last place at most. -/
theorem within (h : Nearest v y) (hv : 2 ^ (-1022 : ℤ) ≤ v) :
    Within (1 + halfUnit) (value y) v := by
  obtain ⟨scale, hlow, hhigh⟩ := exists_scale hv
  have habs := abs_le.1 (h.abs_sub_le hhigh)
  -- the least magnitude of the scale is not crossed
  have hfirst : value (scale * twoTo 52 + twoTo 52) = 2 ^ 52 * unit scale := by
    rw [value_of_le rfl (by decide) (.inr (Nat.le_refl _)), cast_twoTo]
  have hstays : 2 ^ 52 * unit scale ≤ value y := by
    rw [← hfirst]
    exact value_strictMono.monotone (h.le_of_value_le (hfirst.trans_le hlow))
  have hhalf : ∀ a : ℚ, 2 ^ 52 * unit scale ≤ a → unit scale / 2 ≤ a * halfUnit := by
    intro a ha
    rw [halfUnit]
    linarith
  have hv := hhalf v hlow
  have hy := hhalf (value y) hstays
  exact ⟨by linarith, by linarith⟩

/-- A number that was rounded twice before is not far from where it rounds to directly. -/
theorem drift (h : Nearest v x) (h' : Nearest w y) (hwithin : Within ((1 + halfUnit) ^ 2) w v) :
    y ≤ x + 2 ∧ x ≤ y + 2 := by
  have hfactor : (0 : ℚ) ≤ (1 + halfUnit) ^ 2 := by positivity
  have hstep : ∀ {a b : ℚ} {x y : ℕ}, Nearest a x → Nearest b y → b ≤ a * (1 + halfUnit) ^ 2 →
      y ≤ x + 2 := by
    intro a b x y h h' hle
    refine h'.le_of_lt_mid (hle.trans_lt ?_)
    exact (mul_le_mul_of_nonneg_right h.below.1 hfactor).trans_lt (mid_mul_lt x)
  exact ⟨hstep h h' hwithin.le, hstep h' h hwithin.ge⟩

/-- Numbers that differ by the smallest unit at most round to magnitudes that do so too, nearly. -/
theorem drift_of_abs (h : Nearest v x) (h' : Nearest w y) (hclose : |w - v| ≤ unit 0) :
    y ≤ x + 2 ∧ x ≤ y + 2 := by
  -- stated one-sided for any two numbers, to be used both ways
  have hstep : ∀ {a b : ℚ} {x y : ℕ}, Nearest a x → Nearest b y → b ≤ a + unit 0 →
      y ≤ x + 2 := by
    intro a b x y h h' hle
    have hsmallest : unit 0 ≤ gap x := by
      rw [← gap_zero]
      exact gap_mono (Nat.zero_le x)
    have hbelow := h.below.1
    have htwo := mid_add_two x
    have hunit := unit_pos 0
    exact h'.le_of_lt_mid (by linarith)
  obtain ⟨hleft, hright⟩ := abs_le.1 hclose
  exact ⟨hstep h h' (by linarith), hstep h' h (by linarith)⟩

end Nearest

/-! ## Operations on finite magnitudes -/

/-- Numbers up to half-way above the largest magnitude are rounded to a finite one. -/
theorem Nearest.lt_infinite {v : ℚ} {y : ℕ} (h : Nearest v y) (hv : v < mid (infinite - 1)) :
    y < infinite :=
  Nat.lt_of_le_of_lt (h.le_of_lt_mid hv) (by decide)

theorem mid_last : mid (infinite - 1) = ((twoTo 54 - 1) * twoTo 970 : ℕ) := by
  have hparts : Parts (infinite - 1) 2045 (twoTo 53 - 1) := ⟨by decide, by decide, .inr (by decide)⟩
  have hunit : unit 2045 = 2 * 2 ^ 970 := by
    rw [← pow_succ', unit_add 1074 971, unit_one, mul_one]
  rw [hparts.mid_eq, hunit, Nat.cast_mul, Nat.cast_sub (twoTo_pos 53), Nat.cast_sub (twoTo_pos 54),
    cast_twoTo, cast_twoTo, cast_twoTo, pow_succ' 2 53]
  generalize (2 : ℚ) ^ 970 = p
  push_cast
  ring

/-- Natural numbers are rounded to the nearest magnitude. -/
theorem ofNat_nearest {n : ℕ} (h : (n : ℚ) < mid (infinite - 1)) : Nearest n (ofNat n) := by
  obtain ⟨y, hnearest, hrounded⟩ := ofRatio_nearest n Nat.one_pos
  rw [Nat.cast_one, div_one] at hnearest
  rw [ofNat, hrounded, Nat.min_eq_left (hnearest.lt_infinite h).le]
  exact hnearest

/-- A product is rounded to the nearest magnitude, if there is a finite one. -/
theorem product_nearest (x y : Magnitude) :
    ∃ z, Nearest (value x * value y) z ∧ product x y = min z infinite := by
  obtain ⟨z, hnearest, hrounded⟩ :=
    ofRatio_nearest (x.num * y.num) (Nat.mul_pos x.den_pos y.den_pos)
  refine ⟨z, ?_, hrounded⟩
  rw [Nat.cast_mul, Nat.cast_mul, mul_div_mul_comm, num_div_den, num_div_den] at hnearest
  exact hnearest

/-- A quotient is rounded to the nearest magnitude, if there is a finite one. -/
theorem quotient_nearest (x : Magnitude) {y : Magnitude} (hy : 0 < value y) :
    ∃ z, Nearest (value x / value y) z ∧ quotient x y = min z infinite := by
  -- the numerator of a positive value is positive, so the division is one of numbers
  have hnum : 0 < y.num := by
    rw [← num_div_den] at hy
    rcases Nat.eq_zero_or_pos y.num with hzero | hpos
    · rw [hzero, Nat.cast_zero, zero_div] at hy
      exact absurd hy (lt_irrefl 0)
    · exact hpos
  obtain ⟨z, hnearest, hrounded⟩ :=
    ofRatio_nearest (x.num * y.den) (Nat.mul_pos x.den_pos hnum)
  refine ⟨z, ?_, hrounded⟩
  rw [Nat.cast_mul, Nat.cast_mul, mul_div_mul_comm, num_div_den, ← inv_div, num_div_den,
    ← div_eq_mul_inv] at hnearest
  exact hnearest

end Magnitude

end StreamControl
