import ArchSketch.Json.Numeral
import ArchSketch.Proofs.Number.Double

/-! What a numeral is worth in double precision. Its significand and its power of ten are each
rounded, and so is their product or quotient; together this moves the number by a part in
2^52 - 2 at most, and not at all when the power is small and the number has few bits. -/
namespace ArchSketch.Json

open Number

namespace Numeral

theorem ten_pow_le {e : ℕ} (he : e ≤ 56) : (10 : ℚ) ^ e ≤ 2 ^ (190 : ℤ) :=
  le_trans (pow_le_pow_right₀ (by norm_num) he) (by norm_num)

theorem power_error {e : ℕ} (he : e ≤ 56) : |power e - 10 ^ e| * 2 ^ 53 ≤ 10 ^ e := by
  refine (Binary.double_round ?_ ?_).2
  · exact le_trans (by norm_num) (one_le_pow₀ (by norm_num))
  · exact (ten_pow_le he).trans (by norm_num)

theorem power_bounds {e : ℕ} (he : e ≤ 56) : 1 / 2 ≤ power e ∧ power e ≤ 2 ^ (191 : ℤ) := by
  obtain ⟨hlow, hhigh⟩ := abs_le.1 ((le_div_iff₀ (by norm_num)).2 (power_error he))
  have hone : (1 : ℚ) ≤ 10 ^ e := one_le_pow₀ (by norm_num)
  have hten := ten_pow_le he
  constructor
  · linarith
  · have htwo : (2 : ℚ) ^ (191 : ℤ) = 2 * 2 ^ (190 : ℤ) := by norm_num
    linarith

theorem power_exact {e : ℕ} (he : e ≤ 22) : power e = 10 ^ e := by
  have hten : (10 : ℚ) ^ e = (5 ^ e : ℕ) * 2 ^ (e : ℤ) := by
    push_cast
    rw [zpow_natCast, ← mul_pow]
    norm_num
  have hfive : 5 ^ e < 2 ^ 53 :=
    lt_of_le_of_lt (Nat.pow_le_pow_right (by norm_num) he) (by norm_num)
  unfold power
  rw [hten]
  apply Binary.double_round_exact (by positivity) hfive (by omega)
  rw [← hten]
  exact (ten_pow_le (by omega)).trans (by norm_num)

def value (n : Numeral) : ℚ := n.parts.1 * 10 ^ n.parts.2

/-- A significand that double precision holds, and a power of ten near its range's middle. -/
structure IsModerate (n : Numeral) : Prop where
  pos : 0 < n.parts.1
  lt : n.parts.1 < 2 ^ 53
  le : n.parts.2 ≤ 56
  ge : -56 ≤ n.parts.2

/-- The product or quotient that is rounded last. -/
def scaled (n : Numeral) : ℚ :=
  let m := Binary.double.value (Binary.double.round n.parts.1)
  match n.parts.2 with
  | .negSucc e => m / power (e + 1)
  | .ofNat e => m * power e

/-- What reading makes of a moderate numeral, up to the sign. -/
def reading (n : Numeral) : ℕ := Binary.double.round n.scaled

namespace IsModerate

variable {n : Numeral} (hn : n.IsModerate)

include hn

theorem value_round_significand :
    Binary.double.value (Binary.double.round n.parts.1) = n.parts.1 := by
  have hlt : (n.parts.1 : ℚ) ≤ 2 ^ (53 : ℤ) := by exact_mod_cast hn.lt.le
  have h := Binary.double_round_exact (z := 0) hn.pos hn.lt (by norm_num) (by
    rw [zpow_zero, mul_one]
    exact hlt.trans (by norm_num))
  rwa [zpow_zero, mul_one] at h

theorem scaled_cases :
    (∃ e : ℕ, e ≤ 56 ∧ n.parts.2 = -e ∧ n.value = n.parts.1 / 10 ^ e ∧
        n.scaled = n.parts.1 / power e) ∨
      ∃ e : ℕ, e ≤ 56 ∧ n.parts.2 = e ∧ n.value = n.parts.1 * 10 ^ e ∧
        n.scaled = n.parts.1 * power e := by
  have hle := hn.le
  have hge := hn.ge
  unfold scaled value
  dsimp only
  rw [hn.value_round_significand]
  rcases he : n.parts.2 with e | e
  · right
    rw [he, Int.ofNat_eq_natCast] at hle
    exact ⟨e, by omega, rfl, by rw [Int.ofNat_eq_natCast, zpow_natCast], rfl⟩
  · left
    rw [he] at hge
    refine ⟨e + 1, by omega, rfl, ?_, rfl⟩
    rw [Int.negSucc_eq, zpow_neg, ← Nat.cast_succ, zpow_natCast, div_eq_mul_inv]

theorem scaled_bounds : 2 ^ (-250 : ℤ) ≤ n.scaled ∧ n.scaled ≤ 2 ^ (250 : ℤ) := by
  have hlow : (1 : ℚ) ≤ n.parts.1 := by exact_mod_cast hn.pos
  have hhigh : (n.parts.1 : ℚ) ≤ 2 ^ (53 : ℤ) := by exact_mod_cast hn.lt.le
  rcases hn.scaled_cases with ⟨e, he, -, -, hscaled⟩ | ⟨e, he, -, -, hscaled⟩
  · obtain ⟨hPlow, hPhigh⟩ := power_bounds he
    have hP : 0 < power e := by linarith
    rw [hscaled, le_div_iff₀ hP, div_le_iff₀ hP]
    constructor
    · calc (2 : ℚ) ^ (-250 : ℤ) * power e ≤ 2 ^ (-250 : ℤ) * 2 ^ (191 : ℤ) := by gcongr
        _ ≤ 1 := by norm_num
        _ ≤ n.parts.1 := hlow
    · calc (n.parts.1 : ℚ) ≤ 2 ^ (53 : ℤ) := hhigh
        _ ≤ 2 ^ (250 : ℤ) * (1 / 2) := by norm_num
        _ ≤ 2 ^ (250 : ℤ) * power e := by gcongr
  · obtain ⟨hPlow, hPhigh⟩ := power_bounds he
    rw [hscaled]
    constructor
    · calc (2 : ℚ) ^ (-250 : ℤ) ≤ 1 * (1 / 2) := by norm_num
        _ ≤ n.parts.1 * power e := by gcongr
    · calc n.parts.1 * power e ≤ 2 ^ (53 : ℤ) * 2 ^ (191 : ℤ) := by gcongr
        _ ≤ 2 ^ (250 : ℤ) := by norm_num

theorem magnitude? : n.magnitude? = some n.reading := by
  have hfinite := (Binary.double_round hn.scaled_bounds.1 hn.scaled_bounds.2).1
  have hle := hn.le
  have hge := hn.ge
  unfold Numeral.magnitude? reading
  unfold scaled at hfinite ⊢
  dsimp only at hfinite ⊢
  rcases he : n.parts.2 with e | e
  · rw [he, Int.ofNat_eq_natCast] at hle
    rw [he] at hfinite
    dsimp only at hfinite ⊢
    rw [if_pos (by omega), if_pos hfinite]
  · rw [he] at hge
    dsimp only
    unfold divide
    rw [if_pos (by omega)]

theorem isReading : IsReading (Binary.double.value n.reading) n.value := by
  have hm : (0 : ℚ) < n.parts.1 := by exact_mod_cast hn.pos
  have herror := (Binary.double_round hn.scaled_bounds.1 hn.scaled_bounds.2).2
  unfold reading
  rcases hn.scaled_cases with ⟨e, he, -, hvalue, hscaled⟩ | ⟨e, he, -, hvalue, hscaled⟩
  · rw [hscaled] at herror ⊢
    rw [hvalue]
    exact isReading_div hm (by positivity) (power_error he) herror
  · rw [hscaled] at herror ⊢
    rw [hvalue]
    exact isReading_mul hm (by positivity) (power_error he) herror

/-- Reading is exact when the power of ten is small and the value has few enough bits. -/
theorem value_reading (hle : n.parts.2 ≤ 22) (hge : -22 ≤ n.parts.2) {m : ℕ} {z : ℤ}
    (hm : m < 2 ^ 53) (hz : -1074 ≤ z) (hvalue : n.value = m * 2 ^ z) :
    Binary.double.value n.reading = n.value := by
  have hscaled : n.scaled = n.value := by
    rcases hn.scaled_cases with ⟨e, -, he, hvalue, hscaled⟩ | ⟨e, -, he, hvalue, hscaled⟩
    · rw [hscaled, hvalue, power_exact (by omega)]
    · rw [hscaled, hvalue, power_exact (by omega)]
  obtain ⟨hlow, hhigh⟩ := hn.scaled_bounds
  have hpos : 0 < m := by
    apply Nat.pos_of_ne_zero
    rintro rfl
    rw [hscaled, hvalue, Nat.cast_zero, zero_mul] at hlow
    exact absurd hlow (by norm_num)
  unfold reading
  rw [hscaled, hvalue] at hhigh ⊢
  exact Binary.double_round_exact hpos hm hz hhigh

end IsModerate

section Digits

def joined (s : ℕ) (digits : List ℕ) : ℕ := digits.foldl (fun s d => s * 10 + d) s

theorem le_joined (s : ℕ) (digits : List ℕ) : s ≤ joined s digits := by
  induction digits generalizing s with
  | nil => exact le_rfl
  | cons d ds ih =>
    calc s ≤ s * 10 + d := by omega
      _ ≤ joined (s * 10 + d) ds := ih _

theorem joined_append (s : ℕ) (digits more : List ℕ) :
    joined s (digits ++ more) = joined (joined s digits) more :=
  List.foldl_append

theorem absorb_eq {s : ℕ} {digits : List ℕ} (h : joined s digits < UInt64.size) :
    absorb s digits = (joined s digits, digits.length) := by
  induction digits generalizing s with
  | nil => rfl
  | cons d ds ih =>
    have hroom : s * 10 + d < UInt64.size := lt_of_le_of_lt (le_joined _ ds) h
    unfold absorb
    rw [if_pos hroom, ih h]
    rfl

theorem joined_decimal (n : ℕ) :
    joined 0 ((decimal n).map fun c => c.toNat - '0'.toNat) = n := by
  have h : Nat.ofDigitChars 10 (decimal n) 0 = n := Nat.ofDigitChars_ten_toDigits
  rw [Nat.ofDigitChars_eq_foldl] at h
  unfold joined
  rw [List.foldl_map]
  simpa only [mul_comm] using h

theorem joined_lastDigits (s count n : ℕ) :
    joined s ((lastDigits count n).map Fin.val) = s * 10 ^ count + n % 10 ^ count := by
  induction count generalizing n with
  | zero => simp [lastDigits, joined, Nat.mod_one]
  | succ count ih =>
    have hdigit : (Digit.ofNat n).val = n % 10 := rfl
    have hmod : n % 10 ^ (count + 1) = n % 10 + 10 * (n / 10 % 10 ^ count) := by
      rw [pow_succ', Nat.mod_mul]
    rw [lastDigits, List.map_append, joined_append, ih, hmod, pow_succ]
    simp only [List.map_cons, List.map_nil, joined, List.foldl_cons, List.foldl_nil, hdigit]
    ring

theorem parts_eq {n : Numeral} (h : joined n.whole (n.fraction.map Fin.val) < UInt64.size) :
    n.parts = (joined n.whole (n.fraction.map Fin.val),
      n.exponent.getD 0 - n.fraction.length) := by
  have hwhole := joined_decimal n.whole
  have hroom : joined 0 ((decimal n.whole).map fun c => c.toNat - '0'.toNat) < UInt64.size := by
    rw [hwhole]
    exact lt_of_le_of_lt (le_joined _ _) h
  unfold parts
  dsimp only
  rw [absorb_eq hroom, hwhole, absorb_eq h, List.length_map, Nat.sub_self]
  refine Prod.ext rfl ?_
  simp
  ring

theorem joined_withoutLast (count n : ℕ) :
    joined (withoutLast count n) ((lastDigits count n).map Fin.val) = n := by
  rw [joined_lastDigits]
  exact Nat.div_add_mod' n (10 ^ count)

end Digits

section OfDecimal

variable {negative : Bool} {d : Decimal}

theorem negative_ofDecimal : (ofDecimal negative d).negative = negative := by
  unfold ofDecimal
  dsimp only
  split
  · rfl
  · split <;> rfl

theorem isInteger_ofDecimal : (ofDecimal negative d).isInteger = false := by
  have hne (count n : ℕ) : (lastDigits (count + 1) n).isEmpty = false := by
    rw [List.isEmpty_eq_false_iff, ← List.length_pos_iff, length_lastDigits]
    omega
  unfold ofDecimal isInteger
  dsimp only
  split
  · simp
  · split
    · rfl
    · simp [hne]

theorem ten_zpow_leading_le (hpos : 0 < d.digits) :
    (10 : ℚ) ^ (d.exponent + Nat.log 10 d.digits) ≤ d.value ∧
      d.value < 10 ^ (d.exponent + Nat.log 10 d.digits + 1) := by
  have hten : (10 : ℚ) ≠ 0 := by norm_num
  have hlow : (10 : ℚ) ^ Nat.log 10 d.digits ≤ d.digits := by
    exact_mod_cast Nat.pow_log_le_self 10 hpos.ne'
  have hhigh : (d.digits : ℚ) < 10 ^ (Nat.log 10 d.digits + 1) := by
    exact_mod_cast Nat.lt_pow_succ_log_self (by norm_num) d.digits
  unfold Decimal.value
  constructor
  · rw [add_comm, zpow_add₀ hten, zpow_natCast]
    gcongr
  · have hexponent : d.exponent + Nat.log 10 d.digits + 1 =
        ((Nat.log 10 d.digits + 1 : ℕ) : ℤ) + d.exponent := by
      push_cast
      ring
    rw [hexponent, zpow_add₀ hten, zpow_natCast]
    gcongr

private theorem isModerate_of_parts {n : Numeral} {m : ℕ} {e : ℤ} (h : n.parts = (m, e))
    (hpos : 0 < m) (hlt : m < 2 ^ 53) (hle : e ≤ 56) (hge : -56 ≤ e)
    (hvalue : m * 10 ^ e = d.value) : n.IsModerate ∧ n.value = d.value := by
  constructor
  · constructor <;> rw [h] <;> assumption
  · unfold Numeral.value
    rw [h]
    exact hvalue

/-- Wherever the digits are cut, they make the same numeral. -/
private theorem isModerate_cut (negative : Bool) (count : ℕ) {e : Option ℤ} (hpos : 0 < d.digits)
    (hdigits : d.digits ≤ 10 ^ 9) (he : e.getD 0 - count = d.exponent) (hle : d.exponent ≤ 56)
    (hge : -56 ≤ d.exponent) :
    let n : Numeral := ⟨negative, withoutLast count d.digits, lastDigits count d.digits, e⟩
    n.IsModerate ∧ n.value = d.value := by
  intro n
  have hjoined : joined n.whole (n.fraction.map Fin.val) = d.digits := joined_withoutLast _ _
  have hparts : n.parts = (d.digits, d.exponent) := by
    rw [parts_eq (by rw [hjoined]; exact hdigits.trans_lt (by decide)), hjoined,
      length_lastDigits, he]
  exact isModerate_of_parts hparts hpos (by omega) hle hge rfl

private theorem isModerate_withZeros (negative : Bool) {e : ℕ} (hpos : 0 < d.digits)
    (he : d.exponent = e) (hroom : Nat.log 10 d.digits + e ≤ 12) :
    let n : Numeral := ⟨negative, withZeros e d.digits, [Digit.ofNat 0], none⟩
    n.IsModerate ∧ n.value = d.value := by
  intro n
  have hjoined : joined n.whole (n.fraction.map Fin.val) = d.digits * 10 ^ e * 10 := rfl
  have hsmall : d.digits * 10 ^ e < 10 ^ 13 := by
    calc d.digits * 10 ^ e < 10 ^ (Nat.log 10 d.digits + 1) * 10 ^ e := by
          gcongr
          exact Nat.lt_pow_succ_log_self (by norm_num) _
      _ = 10 ^ (Nat.log 10 d.digits + 1 + e) := (pow_add _ _ _).symm
      _ ≤ 10 ^ 13 := Nat.pow_le_pow_right (by norm_num) (by omega)
  have hparts : n.parts = (d.digits * 10 ^ e * 10, -1) := by
    rw [parts_eq (by
      rw [hjoined]
      exact (Nat.mul_lt_mul_of_pos_right hsmall (by norm_num)).trans (by decide)), hjoined]
    rfl
  refine isModerate_of_parts hparts (by positivity) (by omega) (by decide) (by decide) ?_
  unfold Decimal.value
  rw [he, zpow_natCast]
  push_cast
  rw [zpow_neg_one, mul_inv_cancel_right₀ (by norm_num)]

theorem isModerate_ofDecimal (negative : Bool) (hpos : 0 < d.digits) (hdigits : d.digits ≤ 10 ^ 9)
    (hlow : (10 : ℚ) ^ (-46 : ℤ) ≤ d.value) (hhigh : d.value < 10 ^ (40 : ℤ)) :
    (ofDecimal negative d).IsModerate ∧ (ofDecimal negative d).value = d.value := by
  have hten : (1 : ℚ) < 10 := by norm_num
  obtain ⟨hleading, hleading'⟩ := ten_zpow_leading_le hpos
  have hmin := (zpow_lt_zpow_iff_right₀ hten).1 (hlow.trans_lt hleading')
  have hmax := (zpow_lt_zpow_iff_right₀ hten).1 (hleading.trans_lt hhigh)
  have hlog : Nat.log 10 d.digits ≤ 9 :=
    (Nat.log_mono_right hdigits).trans (Nat.log_pow (by norm_num) 9).le
  have hle : d.exponent ≤ 56 := by omega
  have hge : -56 ≤ d.exponent := by omega
  unfold ofDecimal
  dsimp only
  rw [length_decimal, Nat.add_sub_cancel]
  split
  · apply isModerate_cut negative _ hpos hdigits ?_ hle hge
    rw [Option.getD_some]
    omega
  next hpositional =>
    rw [Bool.or_eq_true, decide_eq_true_eq, decide_eq_true_eq, not_or, not_lt, not_lt]
      at hpositional
    split
    next e he =>
      rw [Int.ofNat_eq_natCast] at he
      exact isModerate_withZeros negative hpos he (by omega)
    next e he =>
      apply isModerate_cut negative _ hpos hdigits ?_ hle hge
      rw [he, Option.getD_none, zero_sub, Int.negSucc_eq]
      push_cast
      rfl

end OfDecimal

end Numeral
end ArchSketch.Json
