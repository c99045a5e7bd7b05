import ArchSketch.Proofs.Number.Rounding

/-! Double precision away from the ends of its range, where rounding moves a number by one part in
2^53 at most. Two roundings move it by one part in 2^52 - 2. -/
namespace ArchSketch.Number
namespace Binary

theorem double_share : double.share = 2 ^ 52 := share_eq

theorem double_infinity : double.value double.infinity = 2 ^ (1024 : ℤ) := by
  have hplace := value_place (f := double) (k := 2046) (j := 2 ^ 52)
    (by rw [double_share]; norm_num) (Or.inr (by rw [double_share]))
  have hinfinity : double.infinity = 2046 * double.share + 2 ^ 52 := by decide
  have hunit : double.unit 2046 = 2 ^ (972 : ℤ) := by
    unfold unit
    congr 1
  rw [hinfinity, hplace, hunit, Nat.cast_pow, Nat.cast_ofNat, ← zpow_natCast,
    ← zpow_add₀ two_ne_zero]
  congr 1

theorem double_round {x : ℚ} (hlow : 2 ^ (-250 : ℤ) ≤ x) (hhigh : x ≤ 2 ^ (250 : ℤ)) :
    double.round x < double.infinity ∧
      |double.value (double.round x) - x| * 2 ^ 53 ≤ x := by
  have hnormal : double.share * double.unit 0 ≤ x := by
    refine le_trans ?_ hlow
    rw [double_share, Nat.cast_pow, Nat.cast_ofNat, ← zpow_natCast]
    unfold unit
    rw [← zpow_add₀ two_ne_zero]
    exact zpow_le_zpow_right₀ (by norm_num) (by decide)
  have hfinite : 2 * x < double.value double.infinity := by
    rw [double_infinity]
    calc 2 * x ≤ 2 * 2 ^ (250 : ℤ) := by gcongr
      _ = 2 ^ (251 : ℤ) := by norm_num
      _ < 2 ^ (1024 : ℤ) := zpow_lt_zpow_right₀ (by norm_num) (by norm_num)
  obtain ⟨hlt, herror⟩ := abs_value_round_sub_le hnormal hfinite
  rw [double_share] at herror
  refine ⟨hlt, le_trans (le_of_eq ?_) herror⟩
  norm_num

theorem double_round_exact {m : ℕ} {z : ℤ} (hpos : 0 < m) (hm : m < 2 ^ 53) (hz : -1074 ≤ z)
    (hhigh : m * 2 ^ z ≤ (2 : ℚ) ^ (250 : ℤ)) :
    double.value (double.round (m * 2 ^ z)) = m * 2 ^ z := by
  have hlowest : double.lowest = -1074 := rfl
  obtain ⟨k, rfl⟩ : ∃ k : ℕ, z = double.lowest + k := ⟨(z + 1074).toNat, by omega⟩
  refine (value_round_mul_unit (f := double) (by decide) hpos ?_ ?_).2
  · rw [double_share]
    omega
  · rw [double_infinity]
    exact lt_of_le_of_lt hhigh (zpow_lt_zpow_right₀ (by norm_num) (by norm_num))

end Binary

/-- One part in 2^52 - 2, the most that reading moves a number. -/
def IsReading (y v : ℚ) : Prop := |y - v| * (2 ^ 52 - 2) ≤ v

section

variable {m t P y : ℚ}

theorem isReading_div (hm : 0 < m) (ht : 0 < t) (hP : |P - t| * 2 ^ 53 ≤ t)
    (hy : |y - m / P| * 2 ^ 53 ≤ m / P) : IsReading y (m / t) := by
  obtain ⟨hPlow, hPhigh⟩ := abs_le.1 ((le_div_iff₀ (by norm_num)).2 hP)
  obtain ⟨hylow, hyhigh⟩ := abs_le.1 ((le_div_iff₀ (by norm_num)).2 hy)
  have hP0 : 0 < P := by linarith
  have hq : m / P = m / t * (t / P) := by field_simp
  have hv : 0 < m / t := by positivity
  have hratio_high : t / P ≤ 2 ^ 53 / (2 ^ 53 - 1) := by
    rw [div_le_div_iff₀ hP0 (by norm_num)]
    linarith
  have hratio_low : 2 ^ 53 / (2 ^ 53 + 1) ≤ t / P := by
    rw [div_le_div_iff₀ (by norm_num) hP0]
    linarith
  have hqhigh := mul_le_mul_of_nonneg_left hratio_high hv.le
  have hqlow := mul_le_mul_of_nonneg_left hratio_low hv.le
  rw [← hq] at hqhigh hqlow
  unfold IsReading
  rw [← le_div_iff₀ (by norm_num), abs_le]
  constructor <;> linarith

theorem isReading_mul (hm : 0 < m) (ht : 0 < t) (hP : |P - t| * 2 ^ 53 ≤ t)
    (hy : |y - m * P| * 2 ^ 53 ≤ m * P) : IsReading y (m * t) := by
  obtain ⟨hPlow, hPhigh⟩ := abs_le.1 ((le_div_iff₀ (by norm_num)).2 hP)
  obtain ⟨hylow, hyhigh⟩ := abs_le.1 ((le_div_iff₀ (by norm_num)).2 hy)
  have hv : 0 < m * t := by positivity
  have hqhigh := mul_le_mul_of_nonneg_left hPhigh hm.le
  have hqlow := mul_le_mul_of_nonneg_left hPlow hm.le
  unfold IsReading
  rw [← le_div_iff₀ (by norm_num), abs_le]
  constructor <;> linarith

end

end ArchSketch.Number
