import ArchSketch.Proofs.Number.Double
import ArchSketch.Proofs.Number.Separation
import ArchSketch.Proofs.Number.Shortest

/-! Single precision numbers and the decimals that are written for them. A double that all but
equals the shortest decimal of a number is rounded to the number: it would have to pass the middle
to a neighbour, and the decimal is not that close to one, but for a few numbers. -/
namespace ArchSketch.Number
namespace Binary

theorem single_share : single.share = 2 ^ 23 := share_eq

theorem single_infinity : single.infinity = 255 * 2 ^ 23 := by decide

theorem single_middle {r : ℕ} (hr : r < single.infinity) :
    ∃ k n : ℕ, k < 254 ∧ n % 2 = 1 ∧ n < 2 ^ 25 ∧ (k ≠ 0 → 2 ^ 24 ≤ n) ∧
      r = k * 2 ^ 23 + n / 2 ∧ single.middle r = n * 2 ^ ((k : ℤ) - 150) := by
  obtain ⟨k, j, rfl, hj, hk⟩ := single.exists_place r
  have hmiddle := middle_place hj hk
  rw [single_share] at hj hk hr hmiddle ⊢
  rw [single_infinity] at hr
  refine ⟨k, 2 * j + 1, by omega, by omega, by omega, by omega, by omega, ?_⟩
  have hexponent : single.lowest + k = (k - 150 : ℤ) + 1 := by
    have hlowest : single.lowest = -149 := rfl
    omega
  rw [hmiddle]
  unfold unit
  rw [hexponent, zpow_add_one₀ two_ne_zero]
  ring

def closePlaces : List ℕ := closeMiddles.map fun m => m.1 * 2 ^ 23 + m.2 / 2

theorem eq_middle_of_close {m r : ℕ} {e : ℤ} (hmin : 10 ^ 7 ≤ m) (hmax : m ≤ 10 ^ 8)
    (hlow : -52 ≤ e) (hhigh : e ≤ 31) (hr : r < single.infinity)
    (hclose : |(m : ℚ) * 10 ^ e - single.middle r| * (2 ^ 52 - 2) ≤ m * 10 ^ e) :
    (m : ℚ) * 10 ^ e = single.middle r ∨ r ∈ closePlaces := by
  obtain ⟨k, n, hk, hodd, hnmax, hnmin, hplace, hmiddle⟩ := single_middle hr
  obtain ⟨i, rfl⟩ : ∃ i : ℕ, e = i - 52 := ⟨(e + 52).toNat, by omega⟩
  have hsep := separates_units hk (show i < 84 by omega)
  -- Both sides in the common unit, so that they are natural numbers.
  have hdecimal : (m : ℚ) * 10 ^ ((i : ℤ) - 52) * (10 ^ 52 * 2 ^ 150) =
      (m * (10 ^ i * 2 ^ 150) : ℕ) := by
    have hten : (10 : ℚ) ^ ((i : ℤ) - 52) * 10 ^ 52 = 10 ^ i := by
      rw [← zpow_natCast, ← zpow_natCast, ← zpow_add₀ (by norm_num)]
      congr 1
      simp
    rw [← mul_assoc, mul_assoc (m : ℚ), hten]
    push_cast
    ring
  have hmid : single.middle r * (10 ^ 52 * 2 ^ 150) = (n * (2 ^ k * 10 ^ 52) : ℕ) := by
    have htwo : (2 : ℚ) ^ ((k : ℤ) - 150) * 2 ^ 150 = 2 ^ k := by
      rw [← zpow_natCast, ← zpow_natCast, ← zpow_add₀ two_ne_zero]
      congr 1
      simp
    rw [hmiddle, mul_comm (10 ^ 52 : ℚ), ← mul_assoc, mul_assoc (n : ℚ), htwo]
    push_cast
    ring
  have hunit : (0 : ℚ) < 10 ^ 52 * 2 ^ 150 := by positivity
  have hnear : Bracket.IsClose (10 ^ i * 2 ^ 150) (2 ^ k * 10 ^ 52) m n := by
    have hcloseness : ((Bracket.closeness : ℕ) : ℚ) = 2 ^ 52 - 2 := by norm_num [Bracket.closeness]
    have h := mul_le_mul_of_nonneg_right hclose hunit.le
    rw [mul_right_comm, ← abs_of_pos hunit, ← abs_mul, sub_mul, abs_of_pos hunit, hdecimal, hmid,
      ← hcloseness] at h
    exact Bracket.isClose_iff.2 h
  refine (Bracket.separates_spec (by positivity) hsep hmin hmax hodd hnmax hnmin hnear).imp ?_ ?_
  · intro heq
    apply mul_right_cancel₀ hunit.ne'
    rw [hdecimal, hmid, heq]
  · intro hlisted
    rw [hplace]
    exact List.mem_map.2 ⟨(k, n), hlisted, rfl⟩

/-- A decimal can only be a middle when its power of ten is small, as powers of five must divide
one of the two significands. -/
theorem exponent_of_eq_middle {m r : ℕ} {e : ℤ} (hpos : 0 < m) (hm : m < 2 ^ 53)
    (hr : r < single.infinity) (h : (m : ℚ) * 10 ^ e = single.middle r) :
    e ≤ 22 ∧ -22 ≤ e := by
  obtain ⟨k, n, -, hodd, hnmax, -, -, hmiddle⟩ := single_middle hr
  -- a power of five that divides a significand is no greater, and 5 ^ 23 is too great
  have hfive {c a : ℕ} (hdvd : 5 ^ c ∣ a * 2 ^ k ∨ 5 ^ c ∣ a * 2 ^ 150) (ha : 0 < a)
      (hlt : a < 2 ^ 53) : c ≤ 22 := by
    have hcoprime (b : ℕ) : Nat.Coprime (5 ^ c) (2 ^ b) := Nat.Coprime.pow _ _ (by norm_num)
    have hle : 5 ^ c ≤ a := by
      apply Nat.le_of_dvd ha
      rcases hdvd with hdvd | hdvd
      · exact (hcoprime _).dvd_of_dvd_mul_right hdvd
      · exact (hcoprime _).dvd_of_dvd_mul_right hdvd
    by_contra hc
    have := Nat.pow_le_pow_right (show 0 < 5 by norm_num) (show 23 ≤ c by omega)
    omega
  rw [hmiddle, zpow_sub₀ two_ne_zero, zpow_natCast, mul_div_assoc', eq_div_iff (by positivity)] at h
  rcases Int.le_total 0 e with he | he
  · obtain ⟨c, rfl⟩ := Int.eq_ofNat_of_zero_le he
    have hnat : m * 10 ^ c * 2 ^ 150 = n * 2 ^ k := by
      rw [zpow_natCast] at h
      exact_mod_cast h
    have hc : c ≤ 22 := by
      refine hfive (Or.inl ⟨m * 2 ^ c * 2 ^ 150, ?_⟩) (by omega) (hnmax.trans (by norm_num))
      rw [← hnat, show (10 : ℕ) = 5 * 2 by norm_num, mul_pow]
      ring
    omega
  · obtain ⟨c, hc⟩ := Int.eq_ofNat_of_zero_le (Int.neg_nonneg.2 he)
    obtain rfl : e = -(c : ℤ) := by omega
    have hnat : m * 2 ^ 150 = n * 2 ^ k * 10 ^ c := by
      rw [zpow_neg, zpow_natCast, ← div_eq_mul_inv, div_mul_eq_mul_div,
        div_eq_iff (by positivity)] at h
      exact_mod_cast h
    have hc : c ≤ 22 := by
      refine hfive (Or.inr ⟨n * 2 ^ k * 2 ^ c, ?_⟩) hpos hm
      rw [hnat, show (10 : ℕ) = 5 * 2 by norm_num, mul_pow]
      ring
    omega

theorem isShort_single {p : ℕ} (hpos : 0 < p) :
    single.IsShort p 7 (single.shortest p) :=
  isShort_shortest (by decide) (by decide) hpos

section

variable {p : ℕ} (hpos : 0 < p) (hfinite : p < single.infinity)

include hpos hfinite

theorem tenExponentOf_bounds :
    -45 ≤ tenExponentOf (single.value p) ∧
      tenExponentOf (single.value p) ≤ 38 := by
  have hx : 0 < single.value p := value_pos hpos
  have hlow : (10 : ℚ) ^ (-45 : ℤ) ≤ single.value p := by
    have hone : single.value 1 = 2 ^ (-149 : ℤ) := by
      have h := value_place (f := single) (k := 0) (j := 1) (by decide) (Or.inl rfl)
      rw [zero_mul, zero_add] at h
      rw [h]
      norm_num [unit, single]
    refine le_trans ?_ (value_strictMono.monotone hpos)
    rw [hone]
    norm_num
  have hhigh : single.value p < (10 : ℚ) ^ (39 : ℤ) := by
    have hinfinity : single.value single.infinity = 2 ^ (128 : ℤ) := by
      have hplace : single.infinity = 254 * single.share + 2 ^ 23 := by decide
      rw [hplace, value_place (by decide) (Or.inr (by decide))]
      norm_num [unit, single]
    refine lt_trans (value_strictMono hfinite) ?_
    rw [hinfinity]
    norm_num
  rw [tenExponentOf_eq_log hx]
  constructor
  · exact (Int.zpow_le_iff_le_log (b := 10) (by norm_num) hx).1 (by exact_mod_cast hlow)
  · have := (Int.lt_zpow_iff_log_lt (b := 10) (x := 39) (by norm_num) hx).1 (by
      rw [Nat.cast_ofNat]
      exact hhigh)
    omega

/-- A double that comes close enough to the shortest decimal of a number is rounded to the number,
unless that is next to a middle that decimals come too close to. -/
theorem isNearest_of_isReading {y : ℚ} (hy : IsReading y (single.shortest p).value)
    (hexact : ∀ r < single.infinity,
      (single.shortest p).value = single.middle r →
        y = (single.shortest p).value) :
    single.IsNearest p y ∨ ∃ r ∈ closePlaces, p = r ∨ p = r + 1 := by
  have hx : 0 < single.value p := value_pos hpos
  obtain ⟨hT, hT'⟩ := tenExponentOf_bounds hpos hfinite
  obtain ⟨hnear, -, -, -, -, hcase⟩ := isShort_single hpos
  set v := (single.shortest p).value
  rcases hcase with hfine | ⟨m, hmin, hmax, hv⟩
  · left
    have hgrid : (10 : ℚ) ^ (tenExponentOf (single.value p) - (7 + 1 : ℕ)) ≤
        single.value p / 10 ^ 8 := by
      rw [zpow_sub₀ (by norm_num), zpow_natCast]
      gcongr
      exact ten_zpow_tenExponentOf_le hx
    have hsub : |y - single.value p| ≤ |y - v| + |v - single.value p| :=
      abs_sub_le _ _ _
    have hle := le_abs_self (v - single.value p)
    have hfine' := hfine.trans hgrid
    have hy' : |y - v| ≤ v / (2 ^ 52 - 2) := (le_div_iff₀ (by norm_num)).2 hy
    apply isNearest_of_abs_sub_lt
    rw [single_share]
    push_cast
    linarith
  · by_cases hclose : ∃ r ∈ closePlaces, p = r ∨ p = r + 1
    · exact Or.inr hclose
    left
    refine hnear.of_moved fun r hplace hbetween => ?_
    have hr : r < single.infinity := by omega
    have hmiddle : v = single.middle r := by
      unfold IsReading at hy
      have hnear := le_trans (mul_le_mul_of_nonneg_right hbetween (by norm_num)) hy
      rw [hv] at hnear ⊢
      refine (eq_middle_of_close hmin hmax (by omega) (by omega) hr hnear).resolve_right ?_
      exact fun hmem => hclose ⟨r, hmem, hplace⟩
    exact hexact r hr hmiddle

end

end Binary
end ArchSketch.Number
