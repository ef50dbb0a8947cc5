import StreamControl.Proofs.Double.Shortest
import StreamControl.Proofs.Json.Values

/-!
# Reading the text of a double

Whatever layout a double is written in, its text is read as its digits and their exponent
(`Reader.unsigned_text`).  A number that is a multiple of ten and stands in positional notation ends
in `.0`, so one more zero has joined its digits then (`Decimal.scanned`).
-/

namespace StreamControl

open Decimal

/-- The digits and the exponent that the text of a decimal is read as. -/
def Decimal.scanned (d : Decimal) : Decimal :=
  if 0 ≤ d.exponent ∧ d.exponent + digitCount d.digits ≤ 16 then
    ⟨d.digits * tenTo (d.exponent.toNat + 1), -1⟩
  else d

namespace Decimal

/-- It stands for the same number. -/
theorem value_scanned (d : Decimal) : value d.scanned = value d := by
  unfold scanned
  split
  case isTrue h =>
    obtain ⟨e, he⟩ := Int.eq_ofNat_of_zero_le h.1
    rw [value, value, he, Int.toNat_natCast, Nat.cast_mul, cast_tenTo, zpow_natCast, pow_succ,
      zpow_neg_one]
    field_simp
  case isFalse => rfl

theorem scanned_digits_le {d : Decimal} (hsmall : d.digits < 2 * tenTo 17) :
    d.scanned.digits ≤ Json.Numeral.maxWord := by
  unfold scanned
  split
  case isTrue h =>
    -- all digits stand before the point, and with the last zero there are seventeen at most
    have hpow : tenTo (digitCount d.digits) * tenTo (d.exponent.toNat + 1) ≤ tenTo 17 := by
      rw [tenTo_eq, tenTo_eq, tenTo_eq, ← pow_add]
      exact Nat.pow_le_pow_right (by decide) (by omega)
    have hdigits := (lt_tenTo_digitCount d.digits).le
    exact ((Nat.mul_le_mul_right _ hdigits).trans hpow).trans (by decide)
  case isFalse => exact hsmall.le.trans (by decide)

theorem scanned_digits_pos {d : Decimal} (hpos : 0 < d.digits) : 0 < d.scanned.digits := by
  unfold scanned
  split
  case isTrue => exact Nat.mul_pos hpos (tenTo_pos _)
  case isFalse => exact hpos

theorem le_scanned_exponent {d : Decimal} (h : -324 ≤ d.exponent) : -324 ≤ d.scanned.exponent := by
  unfold scanned
  split
  case isTrue => exact (by decide : (-324 : ℤ) ≤ -1)
  case isFalse => exact h

end Decimal

/-- The exponent of the leading digit as it is written. -/
def Decimal.orderText (order : ℤ) : String :=
  "e" ++ (if order < 0 then "-" else "+") ++ toString order.natAbs

/-- Digits in positional notation, so many of them before the point; zeros fill up what is missing. -/
def Decimal.positionalText (ds : List Char) (before : ℕ) : String :=
  String.ofList (ds.take before ++ List.replicate (before - (ds.take before).length) '0') ++ "." ++
    (if (ds.drop before).isEmpty then "0" else String.ofList (ds.drop before))

/-- The layouts of a decimal by its digits and the exponent of the leading one. -/
theorem Decimal.text_moderate {d : Decimal} {ds : List Char} {order : ℤ}
    (hds : Nat.toDigits 10 d.digits = ds) (horder : d.exponent + ds.length - 1 = order) :
    d.text Layout.moderate =
      if -5 ≤ order ∧ order < 0 then
        "0." ++ String.ofList (List.replicate (-order - 1).toNat '0' ++ ds)
      else if 0 ≤ order ∧ order < 16 then positionalText ds (order.toNat + 1)
      else
        String.ofList (ds.take 1) ++
          (if ds.length ≤ 1 then "" else "." ++ String.ofList (ds.drop 1)) ++ orderText order := by
  have hassoc : ∀ s t u v : String, s ++ (t ++ u ++ v) = s ++ t ++ u ++ v := by
    intro s t u v
    simp only [String.append_assoc]
  subst hds horder
  rw [orderText, hassoc]
  rfl

namespace Json

namespace Reader

open Numeral

/-! ## The parts of a numeral -/

/-- Digits behind the point that fit are all gathered. -/
theorem fraction_digits {cs : List Char} (hdigits : Digits cs) (hne : cs ≠ []) {m : ℕ}
    (hfits : Nat.ofDigitChars 10 cs m ≤ maxWord) {rest : Bytes} (hrest : Apart rest)
    (negative : Bool) (e : ℤ) :
    fraction negative m e (asciiBytes cs ++ rest) =
      realTail negative (Nat.ofDigitChars 10 cs m) (e - cs.length) rest := by
  have hcount : cs.length + 0 ≠ 0 := by
    rw [Nat.add_zero]
    exact fun h => hne (List.length_eq_zero_iff.1 h)
  unfold fraction
  rw [gather_asciiBytes hdigits hfits hrest]
  dsimp only
  rw [countDigits_of_apart hrest]
  dsimp only
  rw [if_neg hcount]

theorem realTail_of_follows {rest : Bytes} (hrest : Follows rest) (negative : Bool) (m : ℕ)
    (e : ℤ) : realTail negative m e rest = real negative m e rest :=
  realTail_of_detached hrest.apart negative m e

theorem gatherAll_asciiBytes {cs : List Char} (hdigits : Digits cs) (m : ℕ) {rest : Bytes}
    (hrest : Apart rest) :
    gatherAll m (asciiBytes cs ++ rest) = (Nat.ofDigitChars 10 cs m, rest) := by
  induction cs generalizing m with
  | nil =>
    -- what comes behind the digits is no digit and ends them
    rcases rest with _ | ⟨b, rest⟩
    · rfl
    · rw [asciiBytes, List.map_nil, List.nil_append, gatherAll, hrest b rfl]
      rfl
  | cons c cs ih =>
    have hdigit := digit?_of_isDigit (hdigits c List.mem_cons_self)
    rw [asciiBytes_cons, List.cons_append, gatherAll, hdigit]
    dsimp only
    rw [ih hdigits.tail, Nat.ofDigitChars_cons, Nat.mul_comm]
    rfl

/-- The digits of an exponent are read back. -/
theorem exponentDigits_toDigits (n : ℕ) {rest : Bytes} (hrest : Apart rest) :
    exponentDigits (asciiBytes (Nat.toDigits 10 n) ++ rest) = .ok (n, rest) := by
  have hdigits := digits_toDigits n
  have hvalue := Nat.ofDigitChars_ten_toDigits (n := n)
  -- the reader takes the first digit by itself, so the numeral is split there
  rcases hcs : Nat.toDigits 10 n with _ | ⟨c, cs⟩
  · exact absurd hcs Nat.toDigits_ne_nil
  · rw [hcs] at hdigits hvalue
    rw [Nat.ofDigitChars_cons, Nat.mul_zero, Nat.zero_add] at hvalue
    have hdigit := digit?_of_isDigit (hdigits c List.mem_cons_self)
    rw [asciiBytes_cons, List.cons_append, exponentDigits, hdigit]
    dsimp only
    rw [gatherAll_asciiBytes hdigits.tail _ hrest]
    exact congrArg (fun n => Except.ok (n, rest)) hvalue

/-- The written form of an exponent. -/
theorem utf8_orderText (order : ℤ) :
    utf8 (orderText order) = Byte.lowerE :: (if order < 0 then Byte.minus else Byte.plus) ::
      asciiBytes (Nat.toDigits 10 order.natAbs) := by
  rw [orderText, utf8_append, utf8_append, utf8_toString]
  split
  · rfl
  · rfl

/-- An exponent is read back with its sign. -/
theorem realTail_orderText (negative : Bool) (m : ℕ) (e order : ℤ) {rest : Bytes}
    (hrest : Follows rest) :
    realTail negative m e (utf8 (orderText order) ++ rest) =
      real negative m (e + order) rest := by
  have hread := exponentDigits_toDigits order.natAbs hrest.noDigit
  rw [utf8_orderText]
  -- with a sign in front the digits of the order are read as a negative number
  split
  case isTrue hneg =>
    have hsign : Int.negOfNat order.natAbs = order := by
      rw [Int.negOfNat_eq, Int.ofNat_eq_natCast]
      omega
    have hexponent := map_apply_of_ok hread Int.negOfNat
    rw [hsign] at hexponent
    exact bind_apply_of_ok hexponent
  case isFalse hpos =>
    have hsign : Int.ofNat order.natAbs = order := by
      rw [Int.ofNat_eq_natCast]
      omega
    have hexponent := map_apply_of_ok hread Int.ofNat
    rw [hsign] at hexponent
    exact bind_apply_of_ok hexponent

/-- Behind the point, digits are gathered on top of those before it. -/
theorem integerTail_point {cs : List Char} (hdigits : Digits cs) (hne : cs ≠ []) {m : ℕ}
    (hfits : Nat.ofDigitChars 10 cs m ≤ maxWord) {rest : Bytes} (hrest : Apart rest)
    (negative : Bool) :
    integerTail negative m 0 (utf8 ("." ++ String.ofList cs) ++ rest) =
      realTail negative (Nat.ofDigitChars 10 cs m) (-cs.length) rest := by
  have hpoint : utf8 "." = [Byte.point] := rfl
  rw [utf8_append, utf8_digits hdigits, hpoint, List.append_assoc]
  refine (fraction_digits hdigits hne hfits hrest negative 0).trans ?_
  rw [zero_sub]

end Reader

/-! ## Layouts -/

theorem Digits.append {cs ds : List Char} (hcs : Digits cs) (hds : Digits ds) :
    Digits (cs ++ ds) := by
  intro c hc
  rcases List.mem_append.1 hc with h | h
  · exact hcs c h
  · exact hds c h

theorem Digits.of_append {cs ds : List Char} (h : Digits (cs ++ ds)) : Digits cs ∧ Digits ds :=
  ⟨fun c hc => h c (List.mem_append_left ds hc), fun c hc => h c (List.mem_append_right cs hc)⟩

theorem digits_replicate (n : ℕ) : Digits (List.replicate n '0') := by
  intro c hc
  rw [List.eq_of_mem_replicate hc]
  rfl

namespace Reader

open Numeral

variable (negative : Bool) {rest : Bytes}

/-- A number below one in positional notation. -/
theorem unsigned_below_one {cs : List Char} (hdigits : Digits cs) (hne : cs ≠ [])
    (hfits : Nat.ofDigitChars 10 cs 0 ≤ maxWord) (hrest : Follows rest) :
    unsigned negative (utf8 ("0." ++ String.ofList cs) ++ rest) =
      real negative (Nat.ofDigitChars 10 cs 0) (-cs.length) rest := by
  have hzero : utf8 ("0." ++ String.ofList cs) ++ rest =
      asciiBytes ['0'] ++ (utf8 ("." ++ String.ofList cs) ++ rest) := by
    rw [utf8_append, utf8_append, ← List.append_assoc, ← List.append_assoc]
    rfl
  have hapart : Apart (utf8 ("." ++ String.ofList cs) ++ rest) := by
    rw [utf8_append]
    exact apart_cons rfl _
  rw [hzero, unsigned_zero hapart, integerTail_point hdigits hne hfits hrest.noDigit,
    realTail_of_follows hrest]

/-- A number in positional notation with digits before and behind the point. -/
theorem unsigned_positional {c : Char} {cs fs : List Char} (hdigits : Digits (c :: cs ++ fs))
    (hc : c ≠ '0') (hne : fs ≠ []) (hfits : Nat.ofDigitChars 10 (c :: cs ++ fs) 0 ≤ maxWord)
    (hapart : Apart rest) :
    unsigned negative (utf8 (String.ofList (c :: cs) ++ "." ++ String.ofList fs) ++ rest) =
      realTail negative (Nat.ofDigitChars 10 (c :: cs ++ fs) 0) (-fs.length) rest := by
  obtain ⟨hwhole, hfraction⟩ := hdigits.of_append
  rw [Nat.ofDigitChars_append] at hfits ⊢
  have hbefore := (le_ofDigitChars (Nat.ofDigitChars 10 (c :: cs) 0) fs).trans hfits
  have hpoint : Apart (utf8 ("." ++ String.ofList fs) ++ rest) := by
    rw [utf8_append]
    exact apart_cons rfl _
  rw [String.append_assoc, utf8_append, List.append_assoc, utf8_digits hwhole,
    unsigned_digits hwhole hc hbefore hpoint, integerTail_point hfraction hne hfits hapart]

/-- An integer in positional notation, which ends in a zero of its own behind the point. -/
theorem unsigned_whole {c : Char} {cs : List Char} (hdigits : Digits (c :: cs)) (hc : c ≠ '0')
    (zeros : ℕ) (hfits : Nat.ofDigitChars 10 (c :: cs) 0 * tenTo (zeros + 1) ≤ maxWord)
    (hrest : Follows rest) :
    unsigned negative (utf8 (positionalText (c :: cs) ((c :: cs).length + zeros)) ++ rest) =
      real negative (Nat.ofDigitChars 10 (c :: cs) 0 * tenTo (zeros + 1)) (-1) rest := by
  have htake : (c :: cs).take ((c :: cs).length + zeros) = c :: cs :=
    List.take_of_length_le (Nat.le_add_right _ _)
  have hdrop : (c :: cs).drop ((c :: cs).length + zeros) = [] :=
    List.drop_of_length_le (Nat.le_add_right _ _)
  -- the zeros before the point and the one behind it are read like other digits
  have hall : Nat.ofDigitChars 10 (c :: (cs ++ List.replicate zeros '0') ++ ['0']) 0 =
      Nat.ofDigitChars 10 (c :: cs) 0 * tenTo (zeros + 1) := by
    rw [← List.cons_append, List.append_assoc, ← List.replicate_succ', Nat.ofDigitChars_append,
      Nat.ofDigitChars_replicate_zero, Nat.mul_comm]
    rfl
  have hdigitsAll : Digits (c :: (cs ++ List.replicate zeros '0') ++ ['0']) :=
    (hdigits.append (digits_replicate zeros)).append (digits_replicate 1)
  have hread := unsigned_positional negative hdigitsAll hc (List.cons_ne_nil _ _)
    (hall ▸ hfits) hrest.noDigit
  rw [hall, realTail_of_follows hrest] at hread
  rw [positionalText, htake, hdrop, Nat.add_sub_cancel_left]
  exact hread

/-- Any other number in positional notation: some of its digits stand behind the point. -/
theorem unsigned_split {c : Char} {cs : List Char} (hdigits : Digits (c :: cs)) (hc : c ≠ '0')
    (hfits : Nat.ofDigitChars 10 (c :: cs) 0 ≤ maxWord) {before : ℕ}
    (hbefore : before < cs.length) (hrest : Follows rest) :
    unsigned negative (utf8 (positionalText (c :: cs) (before + 1)) ++ rest) =
      real negative (Nat.ofDigitChars 10 (c :: cs) 0) (before - cs.length) rest := by
  -- the digits behind the point are gathered as if there were none, and counted off the exponent
  have hsplit : c :: cs.take before ++ cs.drop before = c :: cs := by
    rw [List.cons_append, List.take_append_drop]
  have hne : cs.drop before ≠ [] := by
    rw [Ne, List.drop_eq_nil_iff]
    omega
  have hzeros : before + 1 - (c :: cs.take before).length = 0 := by
    rw [List.length_cons, List.length_take, Nat.min_eq_left hbefore.le, Nat.sub_self]
  have hisEmpty : (cs.drop before).isEmpty = false := by
    rw [List.isEmpty_eq_false_iff]
    exact hne
  have hexponent : -((cs.drop before).length : ℤ) = before - cs.length := by
    rw [List.length_drop]
    omega
  rw [positionalText, List.take_succ_cons, List.drop_succ_cons, hzeros, hisEmpty,
    List.replicate_zero, List.append_nil, ← hexponent, ← realTail_of_follows hrest, ← hsplit]
  exact unsigned_positional negative (hsplit ▸ hdigits) hc hne (hsplit ▸ hfits) hrest.noDigit

/-- A number in exponential notation. -/
theorem unsigned_exponential {c : Char} {cs : List Char} (hdigits : Digits (c :: cs)) (hc : c ≠ '0')
    (hfits : Nat.ofDigitChars 10 (c :: cs) 0 ≤ maxWord) (hrest : Follows rest) (order : ℤ) :
    unsigned negative
        (utf8 (String.ofList [c] ++
          (if (c :: cs).length ≤ 1 then "" else "." ++ String.ofList cs) ++ orderText order) ++
            rest) =
      real negative (Nat.ofDigitChars 10 (c :: cs) 0) (order - cs.length) rest := by
  have hapart : Apart (utf8 (orderText order) ++ rest) := by
    rw [utf8_orderText]
    exact apart_cons rfl _
  rw [utf8_append, List.append_assoc]
  by_cases hshort : (c :: cs).length ≤ 1
  · -- a single digit has no point behind it
    obtain rfl : cs = [] := List.length_eq_zero_iff.1 (by simpa using hshort)
    rw [if_pos hshort, String.append_empty, utf8_digits hdigits,
      unsigned_digits hdigits hc hfits hapart]
    refine (realTail_orderText negative _ 0 order hrest).trans ?_
    rw [zero_add, List.length_nil, Nat.cast_zero, sub_zero]
  · have hne : cs ≠ [] := by
      rintro rfl
      exact hshort (Nat.le_refl 1)
    have hone : Digits (c :: [] ++ cs) := hdigits
    rw [if_neg hshort, ← String.append_assoc]
    refine (unsigned_positional negative hone hc hne hfits hapart).trans ?_
    refine (realTail_orderText negative _ _ order hrest).trans ?_
    rw [neg_add_eq_sub]
    rfl

/-- The text of a decimal is read as its digits and their exponent. -/
theorem unsigned_text {d : Decimal} (hpos : 0 < d.digits) (hsmall : d.digits < 2 * tenTo 17)
    (hrest : Follows rest) :
    unsigned negative (utf8 (d.text Layout.moderate) ++ rest) =
      real negative d.scanned.digits d.scanned.exponent rest := by
  have hdigits := digits_toDigits d.digits
  have hvalue := Nat.ofDigitChars_ten_toDigits (n := d.digits)
  have hfits : d.digits ≤ maxWord := (Nat.le_of_lt hsmall).trans (by decide)
  obtain ⟨c, cs, hcs, hc⟩ := head_toDigits hpos
  have hcount : digitCount d.digits = (c :: cs).length := congrArg List.length hcs
  obtain ⟨order, horder⟩ : ∃ order, d.exponent + ((c :: cs).length : ℤ) - 1 = order := ⟨_, rfl⟩
  rw [hcs] at hdigits hvalue
  rw [Decimal.text_moderate hcs horder, Decimal.scanned, hcount]
  have hpositive : 0 < (c :: cs).length := Nat.succ_pos _
  by_cases hbelow : -5 ≤ order ∧ order < 0
  · -- the number is below one: zeros stand between the point and the digits
    have hnot : ¬ (0 ≤ d.exponent ∧ d.exponent + ((c :: cs).length : ℤ) ≤ 16) := by omega
    rw [if_pos hbelow, if_neg hnot]
    generalize hzeros : (-order - 1).toNat = zeros
    have hall : Nat.ofDigitChars 10 (List.replicate zeros '0' ++ c :: cs) 0 = d.digits := by
      rw [Nat.ofDigitChars_append, Nat.ofDigitChars_replicate_zero, Nat.mul_zero, hvalue]
    have hlength : -((List.replicate zeros '0' ++ c :: cs).length : ℤ) = d.exponent := by
      rw [List.length_append, List.length_replicate]
      omega
    have hleading : Digits (List.replicate zeros '0' ++ c :: cs) :=
      (digits_replicate zeros).append hdigits
    rw [unsigned_below_one negative hleading (by simp) (hall ▸ hfits) hrest, hall, hlength]
  · rw [if_neg hbelow]
    by_cases hmoderate : 0 ≤ order ∧ order < 16
    · rw [if_pos hmoderate]
      by_cases hwhole : 0 ≤ d.exponent
      · -- all digits stand before the point, and zeros behind them
        obtain ⟨zeros, hzeros⟩ := Int.eq_ofNat_of_zero_le hwhole
        have hlength : order.toNat + 1 = (c :: cs).length + zeros := by omega
        have hcond : 0 ≤ d.exponent ∧ d.exponent + ((c :: cs).length : ℤ) ≤ 16 := by omega
        have hbound := Decimal.scanned_digits_le hsmall
        rw [Decimal.scanned, hcount, if_pos hcond, hzeros, Int.toNat_natCast] at hbound
        rw [if_pos hcond, hlength, hzeros, Int.toNat_natCast]
        rw [← hvalue] at hbound ⊢
        exact unsigned_whole negative hdigits hc zeros hbound hrest
      · -- some digits stand behind the point
        have hnot : ¬ (0 ≤ d.exponent ∧ d.exponent + ((c :: cs).length : ℤ) ≤ 16) := by omega
        obtain ⟨before, hbefore⟩ := Int.eq_ofNat_of_zero_le hmoderate.1
        rw [List.length_cons] at horder
        have hlength : before < cs.length := by omega
        have hexponent : (before : ℤ) - cs.length = d.exponent := by omega
        rw [if_neg hnot, hbefore, Int.toNat_natCast]
        refine (unsigned_split negative hdigits hc (hvalue ▸ hfits) hlength hrest).trans ?_
        rw [hvalue, hexponent]
    · -- too large or too small for that: the order stands behind the digits
      have hnot : ¬ (0 ≤ d.exponent ∧ d.exponent + ((c :: cs).length : ℤ) ≤ 16) := by omega
      have hlength : order - cs.length = d.exponent := by
        rw [← horder, List.length_cons]
        push_cast
        ring
      rw [if_neg hmoderate, if_neg hnot]
      refine (unsigned_exponential negative hdigits hc (hvalue ▸ hfits) hrest order).trans ?_
      rw [hvalue, hlength]

/-! ## Digits that no longer fit -/

theorem countDigits_asciiBytes {cs : List Char} (hdigits : Digits cs) (hrest : Apart rest) :
    countDigits (asciiBytes cs ++ rest) = (cs.length, rest) := by
  induction cs with
  | nil => exact countDigits_of_apart hrest
  | cons c cs ih =>
    have hdigit := digit?_of_isDigit (hdigits c List.mem_cons_self)
    rw [asciiBytes_cons, List.cons_append, countDigits, hdigit, ih hdigits.tail]
    rfl

/-- Digits are gathered up to the first that no longer fits. -/
theorem gather_split {cs : List Char} (hdigits : Digits cs) {m : ℕ} (hm : m ≤ maxWord)
    (hover : maxWord < Nat.ofDigitChars 10 cs m) (rest : Bytes) :
    ∃ taken left, taken ++ left = cs ∧ left ≠ [] ∧ Nat.ofDigitChars 10 taken m ≤ maxWord ∧
      gather m (asciiBytes cs ++ rest) =
        (Nat.ofDigitChars 10 taken m, taken.length, asciiBytes left ++ rest) := by
  induction cs generalizing m with
  | nil => exact absurd hm (Nat.not_le.2 hover)
  | cons c cs ih =>
    have hdigit := digit?_of_isDigit (hdigits c List.mem_cons_self)
    have hvalue : ∀ ds, Nat.ofDigitChars 10 (c :: ds) m =
        Nat.ofDigitChars 10 ds (m * 10 + (c.toNat - 48)) := by
      intro ds
      rw [Nat.ofDigitChars_cons, Nat.mul_comm]
      rfl
    rw [asciiBytes_cons, List.cons_append, gather, hdigit]
    dsimp only
    -- the first digit that no longer fits ends the gathering, and it is left with those behind it
    by_cases hfits : m * 10 + (c.toNat - 48) ≤ maxWord
    · rw [hvalue] at hover
      obtain ⟨taken, left, hsplit, hleft, htaken, hgather⟩ := ih hdigits.tail hfits hover
      refine ⟨c :: taken, left, by rw [List.cons_append, hsplit], hleft, ?_, ?_⟩
      · rw [hvalue]
        exact htaken
      · rw [if_pos hfits, hgather, hvalue]
        rfl
    · exact ⟨[], c :: cs, rfl, List.cons_ne_nil _ _, hm, by rw [if_neg hfits]; rfl⟩

/-- An integer that does not fit 64 bits is read as its first digits and the number of the others. -/
theorem unsigned_overflow {c : Char} {cs : List Char} (hdigits : Digits (c :: cs)) (hc : c ≠ '0')
    (hover : maxWord < Nat.ofDigitChars 10 (c :: cs) 0) (hrest : Follows rest) :
    ∃ m k, 0 < m ∧ m ≤ maxWord ∧ m * tenTo k ≤ Nat.ofDigitChars 10 (c :: cs) 0 ∧
      unsigned negative (asciiBytes (c :: cs) ++ rest) = real negative m k rest := by
  have hhead := hdigits c List.mem_cons_self
  have hfirst : c.toNat - 48 ≤ maxWord := by
    have hrange := isDigit_iff.1 hhead
    have hnine : 9 ≤ maxWord := by decide
    omega
  -- the leading digit is not zero, so what is gathered stays positive
  have hnonzero := digit_ne_zero hhead hc
  rw [ofDigitChars_head] at hover ⊢
  obtain ⟨taken, left, hsplit, hleft, htaken, hgather⟩ :=
    gather_split hdigits.tail hfirst hover rest
  have hdigitsLeft : Digits left := (hsplit ▸ hdigits.tail : Digits (taken ++ left)).of_append.2
  refine ⟨Nat.ofDigitChars 10 taken (c.toNat - 48), left.length, ?_, htaken, ?_, ?_⟩
  · exact Nat.lt_of_lt_of_le (Nat.pos_of_ne_zero hnonzero) (le_ofDigitChars _ taken)
  · rw [← hsplit, Nat.ofDigitChars_append, Nat.ofDigitChars_eq_ofDigitChars_zero (l := left),
      Nat.mul_comm]
    exact Nat.le_add_right _ _
  · rw [asciiBytes_cons, List.cons_append, unsigned_of_digit (digit?_of_isDigit hhead) hnonzero,
      hgather]
    dsimp only
    rw [countDigits_asciiBytes hdigitsLeft hrest.noDigit]
    have hsome : left.length ≠ 0 := fun h => hleft (List.length_eq_zero_iff.1 h)
    exact (integerTail_of_follows hrest negative _ _).trans (if_neg hsome)

end Reader

end Json

end StreamControl
