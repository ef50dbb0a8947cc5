import StreamControl.Double.Shortest
import StreamControl.Proofs.Double.Rounding

/-!
# The shortest decimal rounds back

The decimal that names a double is one of the numbers that round to it (`Decimal.shortest_nearest`).
The search for it always ends on a grid, because seventeen digits are closer together than the
half-way points around a double, and so are multiples of `10 ^ (-324)`; that also bounds its digits
and its exponent (`Decimal.shortest_digits_lt`, `Decimal.le_shortest_exponent`).
-/

namespace StreamControl

open Magnitude

/-- Only the first magnitude of a scale has a closer neighbour below. -/
theorem Magnitude.Parts.first_iff {x scale significand : ℕ} (h : Parts x scale significand) :
    x % twoTo 52 = 0 ∧ 1 < range x ↔ 0 < scale ∧ significand = twoTo 52 := by
  unfold range
  by_cases hlow : significand < twoTo 52
  · obtain rfl := h.lead.resolve_right (Nat.not_le.2 hlow)
    have hx : x = significand := by rw [h.eq, Nat.zero_mul, Nat.zero_add]
    rw [hx, Nat.div_eq_of_lt hlow]
    omega
  · obtain ⟨hdiv, hmod⟩ := h.div_mod (Nat.not_lt.1 hlow)
    rw [hdiv, hmod]
    omega

namespace Decimal

/-- The number that a decimal stands for. -/
def value (d : Decimal) : ℚ := d.digits * 10 ^ d.exponent

/-! ## Counting digits -/

theorem lt_tenTo_iff {n e : ℕ} (he : 0 < e) : n < tenTo e ↔ digitCount n ≤ e :=
  (Nat.length_toDigits_le_iff (by decide) he).symm

theorem digitCount_pos (n : ℕ) : 0 < digitCount n := List.length_pos_iff.2 Nat.toDigits_ne_nil

theorem lt_tenTo_digitCount (n : ℕ) : n < tenTo (digitCount n) :=
  (lt_tenTo_iff (digitCount_pos n)).2 (Nat.le_refl _)

theorem tenTo_pred_le {n : ℕ} (hn : 0 < n) : tenTo (digitCount n - 1) ≤ n := by
  rcases Nat.lt_or_ge 1 (digitCount n) with hlong | hshort
  · by_contra hlt
    have hfewer := (lt_tenTo_iff (by omega)).1 (Nat.not_le.1 hlt)
    omega
  · have hone : digitCount n - 1 = 0 := by omega
    rw [hone]
    exact hn

namespace Interval

/-! ## The ends of an interval -/

/-- An interval is that of the magnitude after `x`: its ends are the half-way points around it. -/
structure Surrounds (i : Interval) (x : ℕ) : Prop where
  start : i.low * 2 ^ i.scale = Magnitude.mid x
  centre : i.mid * 2 ^ i.scale = Magnitude.value (x + 1)
  finish : i.high * 2 ^ i.scale = Magnitude.mid (x + 1)
  parity : i.closed = true ↔ (x + 1) % 2 = 0

/-- In quarters of its unit a magnitude has its lower end two below it, and one below it where a
scale begins. -/
theorem exists_lower_end (x : ℕ) :
    ∃ scale significand, Parts (x + 1) scale significand ∧
      (if 0 < scale ∧ significand = twoTo 52 then (4 * significand - 1 : ℚ)
        else 4 * significand - 2) * (unit scale / 4) = Magnitude.mid x := by
  obtain ⟨scale, significand, h⟩ := exists_parts x
  rcases h.succ with hsame | hnext
  · refine ⟨_, _, hsame, ?_⟩
    have hinner : ¬ (0 < scale ∧ significand + 1 = twoTo 52) := by
      have hlead := h.lead
      omega
    rw [if_neg hinner, h.mid_eq]
    push_cast
    ring
  · -- the half-way point still lies on the scale below, whose unit is half as large
    refine ⟨_, _, hnext, ?_⟩
    have hfull : significand + 1 = twoTo 52 + twoTo 52 := by
      have heq : x = scale * twoTo 52 + significand := h.eq
      have heq' : x + 1 = (scale + 1) * twoTo 52 + twoTo 52 := hnext.eq
      rw [Nat.succ_mul] at heq'
      omega
    have hreal : (significand : ℚ) + 1 = twoTo 52 + twoTo 52 := by exact_mod_cast hfull
    rw [if_pos ⟨Nat.succ_pos _, rfl⟩, h.mid_eq, unit_succ, eq_sub_of_add_eq hreal]
    ring

theorem ofMagnitude_surrounds (x : ℕ) : (Interval.ofMagnitude (x + 1)).Surrounds x := by
  obtain ⟨scale, significand, h, hstart⟩ := exists_lower_end x
  -- the lower end is written as a difference of numbers, which must not be cut off at zero
  have hpos : 0 < significand := by
    have heq : x + 1 = scale * twoTo 52 + significand := h.eq
    rcases h.lead with rfl | hlead
    · omega
    · exact Nat.lt_of_lt_of_le (twoTo_pos 52) hlead
  have hquarter : (2 : ℚ) ^ ((scale : ℤ) - 1074 - 2) = unit scale / 4 := by
    rw [zpow_sub₀ two_ne_zero, unit]
    norm_num
  unfold Interval.ofMagnitude
  simp only [h.first_iff, h.significand_eq, h.exponent_eq]
  refine ⟨?_, ?_, ?_, ?_⟩
  · rw [hquarter, ← hstart]
    split
    · rw [Nat.cast_sub (by omega)]
      push_cast
      rfl
    · rw [Nat.cast_sub (by omega)]
      push_cast
      rfl
  · rw [hquarter, h.value_eq]
    push_cast
    ring
  · rw [hquarter, h.mid_eq]
    push_cast
    ring
  · rw [decide_eq_true_iff, h.eq, scale_parity]

/-! ## Grids -/

/-- A multiple of `10 ^ k` and one of an interval's unit are compared in a common unit. -/
theorem units_spec (scale k : ℤ) :
    ∃ c : ℚ, 0 < c ∧ ((units scale k).1 : ℚ) = 10 ^ k * c ∧
      ((units scale k).2 : ℚ) = 2 ^ scale * c := by
  have hten : (10 : ℚ) ^ k.toNat = 10 ^ k * 10 ^ (-k).toNat := by
    rw [← pow_toNat_div 10 (by norm_num) k, div_mul_cancel₀ _ (by positivity)]
  have htwo : (2 : ℚ) ^ scale.toNat = 2 ^ scale * 2 ^ (-scale).toNat := by
    rw [← pow_toNat_div 2 two_ne_zero scale, div_mul_cancel₀ _ (by positivity)]
  refine ⟨10 ^ (-k).toNat * 2 ^ (-scale).toNat, by positivity, ?_, ?_⟩
  · rw [units, Nat.cast_mul, cast_tenTo, cast_twoTo, hten, mul_assoc]
  · rw [units, Nat.cast_mul, cast_tenTo, cast_twoTo, htwo, mul_assoc,
      mul_comm (2 ^ (-scale).toNat)]

variable {i : Interval} {k : ℤ} {d x : ℕ}

theorem step_pos (scale k : ℤ) : 0 < (units scale k).1 := Nat.mul_pos (tenTo_pos _) (twoTo_pos _)

/-- Multiples are compared by their numbers of common units. -/
theorem cmp_units (scale k : ℤ) (d n : ℕ) :
    cmp (d * (units scale k).1) (n * (units scale k).2) = cmp (d * 10 ^ k : ℚ) (n * 2 ^ scale) := by
  obtain ⟨c, hc, hstep, hunit⟩ := units_spec scale k
  have hleft : ((d * (units scale k).1 : ℕ) : ℚ) = d * 10 ^ k * c := by
    rw [Nat.cast_mul, hstep, mul_assoc]
  have hright : ((n * (units scale k).2 : ℕ) : ℚ) = n * 2 ^ scale * c := by
    rw [Nat.cast_mul, hunit, mul_assoc]
  rw [← Nat.strictMono_cast (α := ℚ) |>.cmp_map_eq, hleft, hright, cmp_mul_pos_right hc]

theorem step_le_iff (scale k : ℤ) (d n : ℕ) :
    d * (units scale k).1 ≤ n * (units scale k).2 ↔ (d * 10 ^ k : ℚ) ≤ n * 2 ^ scale :=
  le_iff_le_of_cmp_eq_cmp (cmp_units scale k d n)

theorem le_step_iff (scale k : ℤ) (d n : ℕ) :
    n * (units scale k).2 ≤ d * (units scale k).1 ↔ (n * 2 ^ scale : ℚ) ≤ d * 10 ^ k :=
  le_iff_le_of_cmp_eq_cmp (cmp_eq_cmp_symm.1 (cmp_units scale k d n))

/-- Whether a multiple of `10 ^ k` lies inside an interval. -/
def inside (i : Interval) (k : ℤ) (d : ℕ) : Bool :=
  let (step, unit) := units i.scale k
  if i.closed then i.low * unit ≤ d * step && d * step ≤ i.high * unit
  else i.low * unit < d * step && d * step < i.high * unit

/-- The last multiple of `10 ^ k` that does not exceed the interval's value. -/
def below (i : Interval) (k : ℤ) : ℕ := i.mid * (units i.scale k).2 / (units i.scale k).1

theorem onGrid?_eq (i : Interval) (k : ℤ) :
    i.onGrid? k = match i.inside k (i.below k), i.inside k (i.below k + 1) with
      | false, false => none
      | true, false => some (i.below k)
      | false, true => some (i.below k + 1)
      | true, true =>
        match compare (2 * (i.mid * (units i.scale k).2))
            ((2 * i.below k + 1) * (units i.scale k).1) with
        | .lt => some (i.below k)
        | .gt => some (i.below k + 1)
        | .eq => some (if i.below k % 2 = 0 then i.below k else i.below k + 1) := rfl

/-- What the search on a grid finds lies inside. -/
theorem inside_of_onGrid? (h : i.onGrid? k = some d) : i.inside k d = true := by
  rw [onGrid?_eq] at h
  rcases hfirst : i.inside k (i.below k) with _ | _
  · rcases hsecond : i.inside k (i.below k + 1) with _ | _
    · rw [hfirst, hsecond] at h
      cases h
    · rw [hfirst, hsecond] at h
      cases h
      exact hsecond
  · rcases hsecond : i.inside k (i.below k + 1) with _ | _
    · rw [hfirst, hsecond] at h
      cases h
      exact hfirst
    · -- both lie inside, whichever is chosen
      rw [hfirst, hsecond] at h
      have heither : d = i.below k ∨ d = i.below k + 1 := by
        dsimp only at h
        split at h
        · exact .inl (Option.some.inj h).symm
        · exact .inr (Option.some.inj h).symm
        · split at h
          · exact .inl (Option.some.inj h).symm
          · exact .inr (Option.some.inj h).symm
      rcases heither with rfl | rfl
      · exact hfirst
      · exact hsecond

/-- The search on a grid misses neither of the two points around the value. -/
theorem onGrid?_isSome (h : i.inside k (i.below k) = true ∨ i.inside k (i.below k + 1) = true) :
    (i.onGrid? k).isSome = true := by
  rw [onGrid?_eq]
  rcases hfirst : i.inside k (i.below k) with _ | _
  · rw [h.resolve_left (by simp [hfirst])]
    rfl
  · rcases hsecond : i.inside k (i.below k + 1) with _ | _
    · rfl
    · dsimp only
      split
      · rfl
      · rfl
      · rfl

/-- A multiple of a power of ten lies inside the interval of a magnitude if it rounds to it. -/
theorem inside_iff (h : i.Surrounds x) : i.inside k d = true ↔ Nearest (d * 10 ^ k) (x + 1) := by
  rw [nearest_succ_iff, inside]
  by_cases hclosed : i.closed = true
  · rw [if_pos (h.parity.1 hclosed), ← h.start, ← h.finish]
    simp only [hclosed, if_true, Bool.and_eq_true, decide_eq_true_eq, le_step_iff, step_le_iff]
  · rw [if_neg (mt h.parity.2 hclosed), ← h.start, ← h.finish]
    simp only [hclosed, if_false, Bool.and_eq_true, decide_eq_true_eq, ← not_le, le_step_iff,
      step_le_iff, Bool.false_eq_true]

/-- A grid finer than the interval is wide has a point in it, next to the value. -/
theorem onGrid?_isSome_of_lt (h : i.Surrounds x)
    (hfine : (10 : ℚ) ^ k < Magnitude.mid (x + 1) - Magnitude.mid x) :
    (i.onGrid? k).isSome = true := by
  have hstrict : ∀ d : ℕ, Magnitude.mid x < d * 10 ^ k → (d * 10 ^ k : ℚ) < Magnitude.mid (x + 1) →
      i.inside k d = true := by
    intro d hlow hhigh
    rw [inside_iff h, nearest_succ_iff]
    split
    · exact ⟨hlow.le, hhigh.le⟩
    · exact ⟨hlow, hhigh⟩
  -- the two points of the grid that enclose the value
  have hfirst : (i.below k * 10 ^ k : ℚ) ≤ Magnitude.value (x + 1) := by
    rw [← h.centre, ← step_le_iff]
    exact Nat.div_mul_le_self _ _
  have hsecond : Magnitude.value (x + 1) < ((i.below k + 1 : ℕ) * 10 ^ k : ℚ) := by
    rw [← h.centre, ← not_le, ← step_le_iff, not_le]
    exact Nat.lt_mul_of_div_lt (Nat.lt_succ_self _) (step_pos _ _)
  have hvalue := value_lt_mid (x + 1)
  have hvalue' := mid_lt_value_succ x
  refine onGrid?_isSome ?_
  -- the lower point lies inside, or the upper one does: the interval is wider than their distance
  rcases lt_or_ge (Magnitude.mid x) (i.below k * 10 ^ k) with hin | hout
  · exact .inl (hstrict _ hin (hfirst.trans_lt hvalue))
  · refine .inr (hstrict _ (hvalue'.trans hsecond) ?_)
    push_cast
    linarith

/-! ## The leading digit -/

/-- The exponent of the leading digit of `value / step`. -/
def order (step value : ℕ) : ℤ :=
  if step ≤ value then digitCount (value / step) - 1
  else
    let reciprocal := (step + value - 1) / value
    Int.negOfNat (if reciprocal ≤ 1 then 0 else digitCount (reciprocal - 1))

theorem decimalOrder_eq (i : Interval) :
    i.decimalOrder = order (units i.scale 0).1 (i.mid * (units i.scale 0).2) := rfl

theorem order_of_le {s w : ℕ} (hs : 0 < s) (h : s ≤ w) :
    ∃ e : ℕ, order s w = e ∧ tenTo e * s ≤ w ∧ w < tenTo (e + 1) * s := by
  have hpos : 0 < w / s := Nat.div_pos h hs
  have hcount := digitCount_pos (w / s)
  refine ⟨digitCount (w / s) - 1, ?_, ?_, ?_⟩
  · rw [order, if_pos h]
    omega
  · exact (Nat.mul_le_mul_right s (tenTo_pred_le hpos)).trans (Nat.div_mul_le_self w s)
  · rw [Nat.sub_add_cancel hcount]
    exact (Nat.div_lt_iff_lt_mul hs).1 (lt_tenTo_digitCount _)

theorem order_of_lt {s w : ℕ} (hw : 0 < w) (h : w < s) :
    ∃ e : ℕ, order s w = -((e + 1 : ℕ) : ℤ) ∧ s ≤ tenTo (e + 1) * w ∧ tenTo e * w < s := by
  have hle : (s + w - 1) / w * w ≤ s + w - 1 := Nat.div_mul_le_self _ _
  have hlt : s + w - 1 < (s + w - 1) / w * w + w := Nat.lt_div_mul_add hw
  rw [order, if_neg (Nat.not_le.2 h)]
  dsimp only
  generalize (s + w - 1) / w = r at hle hlt
  -- rounded up, the reciprocal of a number below one is two at least
  obtain ⟨n, rfl⟩ : ∃ n, r = n + 1 + 1 := by
    refine ⟨r - 2, ?_⟩
    rcases r with _ | _ | n
    · omega
    · omega
    · omega
  rw [Nat.succ_mul] at hle hlt
  have hcount := digitCount_pos (n + 1)
  refine ⟨digitCount (n + 1) - 1, ?_, ?_, ?_⟩
  · rw [if_neg (by omega), Nat.add_sub_cancel, Nat.sub_add_cancel hcount]
    exact Int.negOfNat_eq
  · rw [Nat.sub_add_cancel hcount]
    have hmul := Nat.mul_le_mul_right w (lt_tenTo_digitCount (n + 1))
    rw [Nat.succ_mul] at hmul
    omega
  · have hmul := Nat.mul_le_mul_right w (tenTo_pred_le (n := n + 1) n.succ_pos)
    omega

/-- The order of an interval is that of its value. -/
theorem decimalOrder_spec (h : i.Surrounds x) :
    (10 : ℚ) ^ i.decimalOrder ≤ Magnitude.value (x + 1) ∧
      Magnitude.value (x + 1) < 10 ^ (i.decimalOrder + 1) := by
  obtain ⟨c, hc, hstep, hunit⟩ := units_spec i.scale 0
  rw [zpow_zero, one_mul] at hstep
  have hpositive : 0 < Magnitude.value (x + 1) := (value_nonneg x).trans_lt (value_lt_value_succ x)
  have hstepPos := step_pos i.scale 0
  rw [decimalOrder_eq]
  set s := (units i.scale 0).1
  set w := i.mid * (units i.scale 0).2 with hw
  have hs : (0 : ℚ) < s := Nat.cast_pos.2 hstepPos
  have hvalue : Magnitude.value (x + 1) = w / s := by
    rw [eq_div_iff hs.ne', hw, Nat.cast_mul, hunit, hstep, ← h.centre, mul_assoc]
  rw [hvalue] at hpositive ⊢
  -- below one the order counts up the multiplications by ten, from one on the divisions
  rcases Nat.lt_or_ge w s with hsmall | hlarge
  · have hwPos : 0 < w := by
      rw [div_pos_iff_of_pos_right hs] at hpositive
      exact_mod_cast hpositive
    obtain ⟨e, he, hlow, hhigh⟩ := order_of_lt hwPos hsmall
    have hlow : (s : ℚ) ≤ 10 ^ (e + 1) * w := by exact_mod_cast hlow
    have hhigh : (10 : ℚ) ^ e * w < s := by exact_mod_cast hhigh
    have hnext : -((e + 1 : ℕ) : ℤ) + 1 = -(e : ℤ) := by
      push_cast
      ring
    rw [he, hnext, zpow_neg, zpow_neg, zpow_natCast, zpow_natCast]
    constructor
    · rw [inv_eq_one_div, div_le_div_iff₀ (by positivity) hs]
      linarith
    · rw [inv_eq_one_div, div_lt_div_iff₀ hs (by positivity)]
      linarith
  · obtain ⟨e, he, hlow, hhigh⟩ := order_of_le hstepPos hlarge
    have hlow : (10 : ℚ) ^ e * s ≤ w := by exact_mod_cast hlow
    have hhigh : (w : ℚ) < 10 ^ (e + 1) * s := by exact_mod_cast hhigh
    have hnext : (e : ℤ) + 1 = ((e + 1 : ℕ) : ℤ) := rfl
    rw [he, hnext, zpow_natCast, zpow_natCast]
    exact ⟨(le_div_iff₀ hs).2 hlow, (div_lt_iff₀ hs).2 hhigh⟩

/-! ## The first grid with a point inside -/

theorem gap_le_width (x : ℕ) : gap x ≤ Magnitude.mid (x + 1) - Magnitude.mid x := by
  have hnext := gap_le_gap x
  simp only [gap, Magnitude.mid, Nat.add_assoc, Nat.reduceAdd] at hnext ⊢
  linarith

/-- Seventeen digits from the leading one on are closer together than the interval is wide. -/
theorem seventeen_digits_lt_width (h : i.Surrounds x) :
    (10 : ℚ) ^ (i.decimalOrder - 16) < Magnitude.mid (x + 1) - Magnitude.mid x := by
  obtain ⟨scale, significand, hparts⟩ := exists_parts x
  have hlt : (significand : ℚ) + 1 ≤ 2 ^ 53 := by exact_mod_cast hparts.lt
  have hunit := unit_pos scale
  have hwidth := gap_le_width x
  have horder := (decimalOrder_spec h).1
  rw [hparts.value_succ] at horder
  rw [hparts.gap_eq] at hwidth
  -- 53 binary digits are fewer than 16 decimal ones
  have hdigits : ((significand : ℚ) + 1) * unit scale < 10 ^ 16 * unit scale :=
    mul_lt_mul_of_pos_right (hlt.trans_lt (by norm_num)) hunit
  have hpow : (10 : ℚ) ^ i.decimalOrder = 10 ^ 16 * 10 ^ (i.decimalOrder - 16) := by
    rw [← zpow_natCast, ← zpow_add₀ (by norm_num)]
    congr 1
    push_cast
    ring
  linarith

/-- The least number of all lies between two powers of ten. -/
theorem least_lt_unit : (10 : ℚ) ^ (-324 : ℤ) < unit 0 := by
  -- the one fact about numbers is checked by computation, on naturals
  have hpow : twoTo 1074 < tenTo 324 := by decide +kernel
  have hreal : (2 : ℚ) ^ 1074 < 10 ^ 324 := by
    rw [← cast_twoTo, ← cast_tenTo]
    exact_mod_cast hpow
  have htwo : (2 : ℚ) ^ 1074 * unit 0 = 1 := by rw [← unit_add, Nat.zero_add, unit_one]
  have hten : (10 : ℚ) ^ 324 * 10 ^ (-324 : ℤ) = 1 := by
    rw [← zpow_natCast, ← zpow_add₀ (by norm_num)]
    exact zpow_zero _
  have hscaled := mul_lt_mul_of_pos_right hreal (unit_pos 0)
  rw [htwo, ← hten] at hscaled
  exact lt_of_mul_lt_mul_left hscaled (by positivity)

/-- No interval is narrower than the least one. -/
theorem least_lt_width (x : ℕ) :
    (10 : ℚ) ^ (-324 : ℤ) < Magnitude.mid (x + 1) - Magnitude.mid x := by
  refine least_lt_unit.trans_le ?_
  rw [← gap_zero]
  exact (gap_mono (Nat.zero_le x)).trans (gap_le_width x)

theorem least_lt_value (x : ℕ) : (10 : ℚ) ^ (-324 : ℤ) < Magnitude.value (x + 1) := by
  refine least_lt_unit.trans_le ?_
  rw [← gap_zero, gap, value_zero, sub_zero]
  exact value_strictMono.monotone (Nat.succ_le_succ (Nat.zero_le x))

/-- The search goes from grid to grid and takes the first that has a point inside. -/
theorem coarsest_spec (i : Interval) (fuel : ℕ) (k : ℤ) (j : ℕ) (hj : j < fuel)
    (hsome : (i.onGrid? (k - j)).isSome = true) :
    ∃ n ≤ j, ∃ d, i.onGrid? (k - n) = some d ∧ i.coarsest fuel k = ⟨d, k - n⟩ := by
  induction fuel generalizing k j with
  | zero => exact absurd hj (Nat.not_lt_zero j)
  | succ fuel ih =>
    rcases hgrid : i.onGrid? k with _ | d
    · -- nothing on this grid, so the one that is known to have a point is a later one
      rcases j with _ | j
      · rw [Nat.cast_zero, sub_zero, hgrid] at hsome
        cases hsome
      · have hshift : ∀ n : ℕ, k - ((n + 1 : ℕ) : ℤ) = k - 1 - n := by
          intro n
          push_cast
          ring
        rw [hshift] at hsome
        obtain ⟨n, hn, d, hd, hcoarsest⟩ := ih (k - 1) j (by omega) hsome
        refine ⟨n + 1, by omega, d, ?_, ?_⟩
        · rw [hshift]
          exact hd
        · rw [hshift, coarsest, hgrid]
          exact hcoarsest
    · refine ⟨0, Nat.zero_le j, d, ?_, ?_⟩
      · rw [Nat.cast_zero, sub_zero]
        exact hgrid
      · rw [Nat.cast_zero, sub_zero, coarsest, hgrid]

/-- It ends on one of the first seventeen grids, and on none finer than `10 ^ (-324)`. -/
theorem coarsest_nearest (h : i.Surrounds x) :
    ∃ d k, i.coarsest maxDigits i.decimalOrder = ⟨d, k⟩ ∧ Nearest (d * 10 ^ k) (x + 1) ∧
      i.decimalOrder - 16 ≤ k ∧ -324 ≤ k := by
  have horder : -324 ≤ i.decimalOrder := by
    have hleast := (least_lt_value x).trans (decimalOrder_spec h).2
    rw [zpow_lt_zpow_iff_right₀ (by norm_num)] at hleast
    omega
  -- the grid of seventeen digits is fine enough, and so is the one of exponent -324 if it comes
  -- first
  obtain ⟨j, hj, hfine, hlast⟩ : ∃ j : ℕ, j ≤ 16 ∧ -324 ≤ i.decimalOrder - j ∧
      (10 : ℚ) ^ (i.decimalOrder - j) < Magnitude.mid (x + 1) - Magnitude.mid x := by
    by_cases hsmall : i.decimalOrder - 16 ≤ -324
    · refine ⟨(i.decimalOrder + 324).toNat, by omega, by omega, ?_⟩
      have hexponent : i.decimalOrder - ((i.decimalOrder + 324).toNat : ℤ) = -324 := by omega
      rw [hexponent]
      exact least_lt_width x
    · exact ⟨16, Nat.le_refl _, by omega, seventeen_digits_lt_width h⟩
  have hsome := onGrid?_isSome_of_lt h hlast
  obtain ⟨n, hn, d, hd, hcoarsest⟩ :=
    coarsest_spec i maxDigits i.decimalOrder j (Nat.lt_succ_of_le hj) hsome
  exact ⟨d, _, hcoarsest, (inside_iff h).1 (inside_of_onGrid? hd), by omega, by omega⟩

end Interval

/-! ## The shortest decimal -/

theorem stripZeros_spec (fuel : ℕ) (d : Decimal) :
    value (stripZeros fuel d) = value d ∧ (stripZeros fuel d).digits ≤ d.digits ∧
      d.exponent ≤ (stripZeros fuel d).exponent := by
  induction fuel generalizing d with
  | zero => exact ⟨rfl, Nat.le_refl _, Int.le_refl _⟩
  | succ fuel ih =>
    rw [stripZeros]
    split
    case isTrue hzero =>
      obtain ⟨hvalue, hdigits, hexponent⟩ := ih ⟨d.digits / 10, d.exponent + 1⟩
      -- the digit that goes is a zero, so dividing by ten loses nothing
      have hten : d.digits / 10 * 10 = d.digits := by omega
      refine ⟨?_, hdigits.trans (Nat.div_le_self _ _), by dsimp only at hexponent; omega⟩
      have hreal : ((d.digits / 10 : ℕ) : ℚ) * 10 = d.digits := by exact_mod_cast hten
      rw [hvalue, value, value, zpow_add_one₀ (by norm_num), ← hreal]
      ring
    case isFalse => exact ⟨rfl, Nat.le_refl _, Int.le_refl _⟩

/-- The shortest decimal of a magnitude rounds to it. -/
theorem shortest_nearest (x : ℕ) : Nearest (value (shortest (x + 1))) (x + 1) := by
  obtain ⟨d, k, hcoarsest, hnearest, -, -⟩ :=
    Interval.coarsest_nearest (Interval.ofMagnitude_surrounds x)
  rw [shortest, (stripZeros_spec _ _).1, hcoarsest]
  exact hnearest

theorem shortest_digits_pos (x : ℕ) : 0 < (shortest (x + 1)).digits := by
  have hlow := ((shortest_nearest x).above x rfl).1
  by_contra hzero
  rw [value, Nat.eq_zero_of_not_pos hzero, Nat.cast_zero, zero_mul] at hlow
  exact absurd (mid_pos x) (not_lt.2 hlow)

theorem le_shortest_exponent (x : ℕ) : -324 ≤ (shortest (x + 1)).exponent := by
  obtain ⟨d, k, hcoarsest, -, -, hk⟩ :=
    Interval.coarsest_nearest (Interval.ofMagnitude_surrounds x)
  have hexponent := (stripZeros_spec maxDigits ⟨d, k⟩).2.2
  rw [shortest, hcoarsest]
  exact hk.trans hexponent

theorem shortest_digits_lt (x : ℕ) : (shortest (x + 1)).digits < 2 * tenTo 17 := by
  have hsurrounds := Interval.ofMagnitude_surrounds x
  obtain ⟨d, k, hcoarsest, hnearest, hk, -⟩ := Interval.coarsest_nearest hsurrounds
  have hdigits := (stripZeros_spec maxDigits ⟨d, k⟩).2.1
  rw [shortest, hcoarsest]
  refine Nat.lt_of_le_of_lt hdigits ?_
  -- digits on the grid of order minus sixteen, of a number below twice the value
  have hmid : Magnitude.mid (x + 1) ≤ 2 * Magnitude.value (x + 1) := by
    have hgap := gap_le_value x
    have hpos := value_nonneg (x + 1)
    rw [gap] at hgap
    rw [Magnitude.mid]
    linarith
  have horder := (Interval.decimalOrder_spec hsurrounds).2
  have hpow : (10 : ℚ) ^ ((Interval.ofMagnitude (x + 1)).decimalOrder + 1) ≤ 10 ^ 17 * 10 ^ k := by
    rw [← zpow_natCast, ← zpow_add₀ (by norm_num)]
    exact zpow_le_zpow_right₀ (by norm_num) (by push_cast; omega)
  have hbound : (d : ℚ) * 10 ^ k < 2 * 10 ^ 17 * 10 ^ k := by
    have hhigh := hnearest.below.1
    linarith
  have hreal := lt_of_mul_lt_mul_right hbound (by positivity)
  rw [← cast_tenTo] at hreal
  exact_mod_cast hreal

end Decimal

end StreamControl
