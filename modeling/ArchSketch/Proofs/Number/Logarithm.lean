import ArchSketch.Number.Shortest
import Mathlib

/-! The exponents that rounding and printing start from are logarithms rounded down. Both come from
the lengths of a numerator and a denominator, which miss by one at most. -/
namespace ArchSketch.Number

theorem length_decimal (n : Nat) : (decimal n).length = Nat.log 10 n + 1 := by
  have hle (k : Nat) (hk : 0 < k) : (decimal n).length ≤ k ↔ n < 10 ^ k :=
    Nat.length_toDigits_le_iff (by norm_num) hk
  have hpos : 0 < (decimal n).length := Nat.length_toDigits_pos
  apply le_antisymm
  · rw [hle _ (by omega)]
    exact Nat.lt_pow_succ_log_self (by norm_num) n
  · have hn : n < 10 ^ (decimal n).length := (hle _ hpos).1 le_rfl
    exact Nat.log_lt_of_lt_pow' hpos.ne' hn

section

variable {b : Nat} {x : ℚ}

private theorem num_div_den_toNat (hx : 0 < x) : x = (x.num.toNat : ℚ) / x.den := by
  have hnum : (x.num.toNat : ℤ) = x.num := Int.toNat_of_nonneg (Rat.num_nonneg.2 hx.le)
  have hcast : (x.num.toNat : ℚ) = x.num := by exact_mod_cast hnum
  rw [hcast]
  exact (Rat.num_div_den x).symm

private theorem log_num_sub_log_den (hb : 1 < b) (hx : 0 < x) :
    (b : ℚ) ^ ((Nat.log b x.num.toNat : ℤ) - Nat.log b x.den - 1) ≤ x ∧
      x < (b : ℚ) ^ ((Nat.log b x.num.toNat : ℤ) - Nat.log b x.den + 1) := by
  have hb0 : (0 : ℚ) < b := by exact_mod_cast hb.trans' one_pos
  have hnum : x.num.toNat ≠ 0 := by
    have := Rat.num_pos.2 hx
    omega
  have hden : (0 : ℚ) < x.den := by exact_mod_cast x.den_pos
  have hn : (b : ℚ) ^ Nat.log b x.num.toNat ≤ x.num.toNat := by
    exact_mod_cast Nat.pow_log_le_self b hnum
  have hn' : (x.num.toNat : ℚ) < (b : ℚ) ^ (Nat.log b x.num.toNat + 1) := by
    exact_mod_cast Nat.lt_pow_succ_log_self hb _
  have hd : (b : ℚ) ^ Nat.log b x.den ≤ x.den := by
    exact_mod_cast Nat.pow_log_le_self b x.den_pos.ne'
  have hd' : (x.den : ℚ) < (b : ℚ) ^ (Nat.log b x.den + 1) := by
    exact_mod_cast Nat.lt_pow_succ_log_self hb _
  constructor
  · calc (b : ℚ) ^ ((Nat.log b x.num.toNat : ℤ) - Nat.log b x.den - 1)
        = (b : ℚ) ^ Nat.log b x.num.toNat / (b : ℚ) ^ (Nat.log b x.den + 1) := by
          rw [sub_sub, zpow_sub₀ hb0.ne', ← zpow_natCast, ← zpow_natCast]
          push_cast
          rfl
      _ ≤ x.num.toNat / x.den := by gcongr
      _ = x := (num_div_den_toNat hx).symm
  · calc x = x.num.toNat / x.den := num_div_den_toNat hx
      _ < (b : ℚ) ^ (Nat.log b x.num.toNat + 1) / (b : ℚ) ^ Nat.log b x.den := by gcongr
      _ = (b : ℚ) ^ ((Nat.log b x.num.toNat : ℤ) - Nat.log b x.den + 1) := by
          rw [sub_add_eq_add_sub, zpow_sub₀ hb0.ne', ← zpow_natCast, ← zpow_natCast]
          push_cast
          rfl

private theorem corrected_eq_log (hb : 1 < b) (hx : 0 < x) {guess : ℤ}
    (hguess : guess = (Nat.log b x.num.toNat : ℤ) - Nat.log b x.den) :
    (if x < (b : ℚ) ^ guess then guess - 1 else guess) = Int.log b x := by
  obtain ⟨hlow, hhigh⟩ := log_num_sub_log_den hb hx
  rw [← hguess] at hlow hhigh
  have hle := (Int.zpow_le_iff_le_log hb hx).1 hlow
  have hlt := (Int.lt_zpow_iff_log_lt hb hx).1 hhigh
  split
  next h =>
    have := (Int.lt_zpow_iff_log_lt hb hx).1 h
    omega
  next h =>
    have := (Int.zpow_le_iff_le_log hb hx).1 (not_lt.1 h)
    omega

end

namespace Binary

theorem exponentOf_eq_log {x : ℚ} (hx : 0 < x) : exponentOf x = Int.log 2 x := by
  unfold exponentOf
  exact corrected_eq_log (b := 2) (by norm_num) hx (by simp only [Nat.log2_eq_log_two])

theorem tenExponentOf_eq_log {x : ℚ} (hx : 0 < x) : tenExponentOf x = Int.log 10 x := by
  unfold tenExponentOf
  exact corrected_eq_log (b := 10) (by norm_num) hx (by simp only [length_decimal]; omega)

theorem two_zpow_exponentOf_le {x : ℚ} (hx : 0 < x) : 2 ^ exponentOf x ≤ x := by
  rw [exponentOf_eq_log hx]
  exact Int.zpow_log_le_self (b := 2) (by norm_num) hx

theorem lt_two_zpow_exponentOf_succ {x : ℚ} (hx : 0 < x) : x < 2 ^ (exponentOf x + 1) := by
  rw [exponentOf_eq_log hx]
  exact Int.lt_zpow_succ_log_self (b := 2) (by norm_num) x

theorem ten_zpow_tenExponentOf_le {x : ℚ} (hx : 0 < x) : 10 ^ tenExponentOf x ≤ x := by
  rw [tenExponentOf_eq_log hx]
  exact Int.zpow_log_le_self (b := 10) (by norm_num) hx

theorem lt_ten_zpow_tenExponentOf_succ {x : ℚ} (hx : 0 < x) : x < 10 ^ (tenExponentOf x + 1) := by
  rw [tenExponentOf_eq_log hx]
  exact Int.lt_zpow_succ_log_self (b := 10) (by norm_num) x

end Binary
end ArchSketch.Number
