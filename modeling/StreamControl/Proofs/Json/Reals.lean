import StreamControl.Proofs.Json.Numerals
import StreamControl.Proofs.Json.Scaling

/-!
# Reading back doubles

A finite double is written with the shortest digits that name it, and read by scaling these digits
(`Reader.reads_real`).  What is read is finite and has the same sign, and at most one double lies
between it and what was written (`Double.reread_close`); they are the same where the digits and the
power of ten are small (`Double.reread_exact`).
-/

namespace StreamControl

open Json Magnitude

namespace Double

/-! ## Sign and magnitude -/

theorem toNat_ofMagnitude (negative : Bool) {y : ℕ} (hy : y < twoTo 63) :
    (ofMagnitude negative y).bits.toNat = (if negative then twoTo 63 else 0) + y := by
  have hdouble : twoTo 63 + twoTo 63 = 2 ^ 64 := by decide
  have hlt : (if negative then twoTo 63 else 0) + y < 2 ^ 64 := by
    split <;> omega
  exact UInt64.toNat_ofNat_of_lt' hlt

theorem isNegative_ofMagnitude (negative : Bool) {y : ℕ} (hy : y < twoTo 63) :
    (ofMagnitude negative y).isNegative = negative := by
  rw [isNegative, toNat_ofMagnitude negative hy]
  cases negative with
  | true => exact decide_eq_true (Nat.le_add_right _ _)
  | false => exact decide_eq_false (by simpa using hy)

theorem magnitude_ofMagnitude (negative : Bool) {y : ℕ} (hy : y < twoTo 63) :
    (ofMagnitude negative y).magnitude = y := by
  rw [magnitude, toNat_ofMagnitude negative hy]
  cases negative with
  | true => exact (Nat.add_mod_left _ _).trans (Nat.mod_eq_of_lt hy)
  | false => exact (congrArg (· % twoTo 63) (Nat.zero_add y)).trans (Nat.mod_eq_of_lt hy)

theorem isFinite_ofMagnitude (negative : Bool) {y : ℕ} (hy : y < infinite) :
    (ofMagnitude negative y).isFinite = true := by
  rw [isFinite, magnitude_ofMagnitude negative (hy.trans (by decide))]
  exact decide_eq_true hy

/-- Sign and magnitude make up a double. -/
theorem ofMagnitude_magnitude (x : Double) : ofMagnitude x.isNegative x.magnitude = x := by
  obtain ⟨bits⟩ := x
  have hlt : bits.toNat < twoTo 63 + twoTo 63 := bits.toNat_lt
  have hbits : (if isNegative ⟨bits⟩ then twoTo 63 else 0) + magnitude ⟨bits⟩ = bits.toNat := by
    unfold magnitude isNegative
    dsimp only
    -- the topmost bit is the sign, the others are the magnitude
    by_cases hneg : twoTo 63 ≤ bits.toNat
    · have hbelow : bits.toNat - twoTo 63 < twoTo 63 := by omega
      rw [if_pos (decide_eq_true hneg), Nat.mod_eq_sub_mod hneg, Nat.mod_eq_of_lt hbelow]
      omega
    · rw [if_neg (by simpa using hneg), Nat.mod_eq_of_lt (Nat.not_le.1 hneg), Nat.zero_add]
  rw [ofMagnitude, hbits]
  exact congrArg Double.mk UInt64.ofNat_toNat

/-! ## What is read -/

/-- The text of a double without its sign. -/
def unsignedText (x : Double) : String :=
  if x.magnitude = 0 then "0.0"
  else (Decimal.shortest x.magnitude).text Decimal.Layout.moderate

theorem text_eq (x : Double) : x.text = (if x.isNegative then "-" else "") ++ x.unsignedText := rfl

/-- The digits and the exponent that the text of a double is read as. -/
def scanned (x : Double) : Decimal :=
  if x.magnitude = 0 then ⟨0, -1⟩ else (Decimal.shortest x.magnitude).scanned

/-- The double that the text of a double is read as. -/
def reread (x : Double) : Double :=
  match Numeral.scaled? x.scanned.digits x.scanned.exponent with
  | some y => ofMagnitude x.isNegative y
  | none => x

variable {x : Double}

theorem scanned_nearest (x : Double) : Nearest x.scanned.value x.magnitude := by
  unfold scanned
  split
  case isTrue hzero =>
    rw [hzero, Decimal.value, Nat.cast_zero, zero_mul]
    exact nearest_zero
  case isFalse hnonzero =>
    obtain ⟨n, hn⟩ := Nat.exists_eq_succ_of_ne_zero hnonzero
    rw [Decimal.value_scanned, hn]
    exact Decimal.shortest_nearest n

/-- The largest two doubles are both read as the largest. -/
theorem scaled?_largest {n : ℕ} (hroom : ¬ n + 2 < infinite) (hn : n < infinite) :
    ∃ y, Numeral.scaled? (Decimal.shortest n).scanned.digits
        (Decimal.shortest n).scanned.exponent = some y ∧
      y < infinite ∧ y ≤ n + 2 ∧ n ≤ y + 2 := by
  have hcases : n = infinite - 2 ∨ n = infinite - 1 := by omega
  refine ⟨infinite - 1, ?_⟩
  rcases hcases with rfl | rfl
  · decide +kernel
  · decide +kernel

/-- Scaling the digits of a finite double gives a finite one nearby. -/
theorem exists_scaled (hfinite : x.isFinite = true) :
    ∃ y, Numeral.scaled? x.scanned.digits x.scanned.exponent = some y ∧ y < infinite ∧
      y ≤ x.magnitude + 2 ∧ x.magnitude ≤ y + 2 := by
  have hlt : x.magnitude < infinite := of_decide_eq_true hfinite
  have hnearest := scanned_nearest x
  unfold scanned at hnearest ⊢
  split at hnearest
  case isTrue hzero =>
    rw [if_pos hzero, hzero]
    refine ⟨0, ?_, by decide, by decide, by decide⟩
    exact Numeral.scaled?_exact (by decide) (by decide) (hzero ▸ hnearest) (by decide)
  case isFalse hnonzero =>
    rw [if_neg hnonzero]
    -- two steps below infinity the scaling could leave the finite range; those doubles are checked
    -- alone
    by_cases hroom : x.magnitude + 2 < infinite
    · obtain ⟨n, hn⟩ := Nat.exists_eq_succ_of_ne_zero hnonzero
      have hexponent := Decimal.le_scanned_exponent (Decimal.le_shortest_exponent n)
      rw [hn] at hnearest hroom ⊢
      exact Numeral.scaled?_drift (Decimal.scanned_digits_pos (Decimal.shortest_digits_pos n))
        (Decimal.scanned_digits_le (Decimal.shortest_digits_lt n))
        ((by decide : (-330 : ℤ) ≤ -324).trans hexponent) hnearest hroom
    · exact scaled?_largest hroom hlt

/-- What is read is finite, has the same sign, and lies next to what was written or but one. -/
theorem reread_close (hfinite : x.isFinite = true) :
    x.reread.isFinite = true ∧ x.reread.isNegative = x.isNegative ∧
      x.reread.magnitude ≤ x.magnitude + 2 ∧ x.magnitude ≤ x.reread.magnitude + 2 := by
  obtain ⟨y, hscaled, hy, hup, hdown⟩ := exists_scaled hfinite
  have hword : y < twoTo 63 := hy.trans (by decide)
  rw [reread, hscaled]
  dsimp only
  rw [magnitude_ofMagnitude _ hword]
  exact ⟨isFinite_ofMagnitude _ hy, isNegative_ofMagnitude _ hword, hup, hdown⟩

/-- Digits and a power of ten that are not rounded themselves give back the same double. -/
theorem reread_exact (hfinite : x.isFinite = true) (hdigits : x.scanned.digits < twoTo 53)
    (hexponent : x.scanned.exponent.natAbs ≤ 22) : x.reread = x := by
  have hscaled := Numeral.scaled?_exact hdigits hexponent (scanned_nearest x)
    (of_decide_eq_true hfinite)
  rw [reread, hscaled]
  exact ofMagnitude_magnitude x

end Double

namespace Json

namespace Reader

open Numeral

/-- The text of a double without its sign is read as its digits and their exponent. -/
theorem unsigned_unsignedText (x : Double) (negative : Bool) {rest : Bytes}
    (hrest : Follows rest) :
    unsigned negative (utf8 x.unsignedText ++ rest) =
      real negative x.scanned.digits x.scanned.exponent rest := by
  unfold Double.unsignedText Double.scanned
  by_cases hzero : x.magnitude = 0
  · have hdigits : Digits ['0'] := digits_replicate 1
    rw [if_pos hzero, if_pos hzero]
    exact unsigned_below_one negative hdigits (List.cons_ne_nil _ _) (by decide) hrest
  · obtain ⟨n, hn⟩ := Nat.exists_eq_succ_of_ne_zero hzero
    rw [if_neg hzero, if_neg hzero, hn]
    exact unsigned_text negative (Decimal.shortest_digits_pos n) (Decimal.shortest_digits_lt n) hrest

theorem unsigned_reread {x : Double} (hfinite : x.isFinite = true) {rest : Bytes}
    (hrest : Follows rest) :
    unsigned x.isNegative (utf8 x.unsignedText ++ rest) = .ok (.real x.reread, rest) := by
  obtain ⟨y, hscaled, -⟩ := Double.exists_scaled hfinite
  rw [unsigned_unsignedText x _ hrest, real, Double.reread, hscaled]
  rfl

/-- What is read as a number begins with a digit. -/
theorem exists_digit_of_unsigned {negative : Bool} {bytes : Bytes} {r : Numeral × Bytes}
    (h : unsigned negative bytes = .ok r) :
    ∃ b left, bytes = b :: left ∧ (Byte.digit? b).isSome = true := by
  rcases bytes with _ | ⟨b, left⟩
  · cases h
  · refine ⟨b, left, rfl, ?_⟩
    rcases hdigit : Byte.digit? b with _ | d
    · rw [unsigned, hdigit] at h
      cases h
    · rfl

/-- The written form of a double begins like a numeral, and is read as one. -/
theorem reads_real {x : Double} (hfinite : x.isFinite = true) :
    (∃ b bytes, realBytes x = b :: bytes ∧ startsNumber b = true) ∧
      Reads number (realBytes x) (.real x.reread) := by
  have hunsigned : ∀ rest, Follows rest →
      unsigned x.isNegative (utf8 x.unsignedText ++ rest) = .ok (.real x.reread, rest) :=
    fun rest hrest => unsigned_reread hfinite hrest
  obtain ⟨b, bytes, hbytes, hdigit⟩ := exists_digit_of_unsigned (hunsigned [] follows_nil)
  rw [List.append_nil] at hbytes
  rw [hbytes] at hunsigned
  rw [realBytes, if_pos hfinite, Double.text_eq, utf8_append, hbytes]
  -- the minus sign is read apart from the numeral, which then begins with a digit
  rcases hneg : x.isNegative with _ | _
  · rw [hneg] at hunsigned
    refine ⟨⟨b, bytes, rfl, ?_⟩, fun rest hrest => ?_⟩
    · rw [startsNumber, hdigit, Bool.or_true]
    · exact (number_of_digit hdigit (bytes ++ rest)).trans (hunsigned rest hrest)
  · rw [hneg] at hunsigned
    exact ⟨⟨Byte.minus, b :: bytes, rfl, rfl⟩, hunsigned⟩

end Reader

end Json

end StreamControl
