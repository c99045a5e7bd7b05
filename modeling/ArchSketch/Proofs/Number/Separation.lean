import Mathlib

/-! How close a short decimal comes to the middle between two single precision numbers. Both are
multiples of fixed units `A` and `B`, so the question is how well a fraction of small terms
approaches the ratio of the units. Two fractions around the ratio that cannot be refined within
the bound answer it: every other pair of terms is a combination of the two. -/
namespace ArchSketch.Number

/-- Two fractions `p₀ / q₀` and `p₁ / q₁` around a ratio, with what `q₀ A` is above `p₀ B` and
`q₁ A` below `p₁ B`. -/
structure Bracket where
  q₀ : ℕ
  p₀ : ℕ
  above : ℕ
  q₁ : ℕ
  p₁ : ℕ
  below : ℕ

namespace Bracket

variable {A B M : ℕ}

structure IsSound (A B : ℕ) (b : Bracket) : Prop where
  above_eq : b.q₀ * A = b.p₀ * B + b.above
  below_eq : b.p₁ * B = b.q₁ * A + b.below
  det : b.q₀ * b.p₁ = b.q₁ * b.p₀ + 1

def start (A B : ℕ) : Bracket := ⟨1, A / B, A % B, 0, 1, B⟩

/-- How often one fraction may be added to the other: its own remainder must not be used up more
often than there is of the other's, nor the denominator pass the bound. -/
def steps (M q q' remainder remainder' : ℕ) : ℕ :=
  if remainder' = 0 then (M - q) / q' else min ((M - q) / q') (remainder / remainder')

def refine (M : ℕ) : (fuel : ℕ) → Bracket → Bracket
  | 0, b => b
  | fuel + 1, b =>
    if M < b.q₀ + b.q₁ then b
    else if b.below ≤ b.above then
      let t := steps M b.q₀ b.q₁ b.above b.below
      refine M fuel { b with q₀ := b.q₀ + t * b.q₁, p₀ := b.p₀ + t * b.p₁,
                             above := b.above - t * b.below }
    else
      let t := steps M b.q₁ b.q₀ b.below b.above
      refine M fuel { b with q₁ := b.q₁ + t * b.q₀, p₁ := b.p₁ + t * b.p₀,
                             below := b.below - t * b.above }

theorem isSound_start : IsSound A B (start A B) where
  above_eq := by
    unfold start
    rw [one_mul, mul_comm, Nat.div_add_mod]
  below_eq := by simp [start]
  det := by simp [start]

theorem steps_mul_le (q q' remainder remainder' : ℕ) :
    steps M q q' remainder remainder' * remainder' ≤ remainder := by
  unfold steps
  split
  next h => simp [h]
  next h =>
    calc min ((M - q) / q') (remainder / remainder') * remainder'
        ≤ remainder / remainder' * remainder' := Nat.mul_le_mul_right _ (min_le_right _ _)
      _ ≤ remainder := Nat.div_mul_le_self _ _

theorem IsSound.refine {b : Bracket} (hb : IsSound A B b) (fuel : ℕ) :
    IsSound A B (refine M fuel b) := by
  induction fuel generalizing b with
  | zero => exact hb
  | succ fuel ih =>
    obtain ⟨habove, hbelow, hdet⟩ := hb
    unfold Bracket.refine
    split_ifs
    · exact ⟨habove, hbelow, hdet⟩
    · have hle := steps_mul_le (M := M) b.q₀ b.q₁ b.above b.below
      apply ih
      refine ⟨?_, hbelow, ?_⟩
      · dsimp only
        zify [hle] at habove hbelow ⊢
        linear_combination habove - steps M b.q₀ b.q₁ b.above b.below * hbelow
      · dsimp only
        linear_combination hdet
    · have hle := steps_mul_le (M := M) b.q₁ b.q₀ b.below b.above
      apply ih
      refine ⟨habove, ?_, ?_⟩
      · dsimp only
        zify [hle] at habove hbelow ⊢
        linear_combination hbelow - steps M b.q₁ b.q₀ b.below b.above * habove
      · dsimp only
        linear_combination hdet

/-- The inverse of the relative distance that counts as close. -/
def closeness : ℕ := 2 ^ 52 - 2

def IsClose (A B m n : ℕ) : Prop := |(m * A : ℤ) - n * B| * closeness ≤ m * A

theorem isClose_iff {m n : ℕ} : IsClose A B m n ↔
    |((m * A : ℕ) : ℚ) - (n * B : ℕ)| * (closeness : ℕ) ≤ (m * A : ℕ) := by
  unfold IsClose
  generalize closeness = c
  push_cast
  constructor <;> intro h <;> exact_mod_cast h

theorem IsSound.exists_combination {b : Bracket} (hb : IsSound A B b) (m n : ℕ) :
    ∃ a c : ℤ, (m : ℤ) = a * b.q₀ + c * b.q₁ ∧ (n : ℤ) = a * b.p₀ + c * b.p₁ ∧
      (m * A : ℤ) - n * B = a * b.above - c * b.below := by
  obtain ⟨habove, hbelow, hdet⟩ := hb
  zify at habove hbelow hdet
  have hm : (m : ℤ) = (m * b.p₁ - n * b.q₁) * b.q₀ + (n * b.q₀ - m * b.p₀) * b.q₁ := by
    linear_combination (-m : ℤ) * hdet
  have hn : (n : ℤ) = (m * b.p₁ - n * b.q₁) * b.p₀ + (n * b.q₀ - m * b.p₀) * b.p₁ := by
    linear_combination (-n : ℤ) * hdet
  refine ⟨m * b.p₁ - n * b.q₁, n * b.q₀ - m * b.p₀, hm, hn, ?_⟩
  linear_combination A * hm - B * hn + (m * b.p₁ - n * b.q₁ : ℤ) * habove -
    (n * b.q₀ - m * b.p₀ : ℤ) * hbelow

private theorem add_le_abs_sub {a c : ℤ} (ha : a < 0) (hc : 0 < c) (above below : ℕ) :
    (above + below : ℤ) ≤ |a * above - c * below| := by
  have habove : (above : ℤ) ≤ -a * above :=
    le_mul_of_one_le_left (Int.natCast_nonneg _) (by omega)
  have hbelow : (below : ℤ) ≤ c * below := le_mul_of_one_le_left (Int.natCast_nonneg _) hc
  calc (above + below : ℤ) ≤ -(a * above - c * below) := by linarith
    _ ≤ |a * above - c * below| := neg_le_abs _

private theorem near_of_multiple {a q remainder : ℕ} (ha : 0 < a)
    (h : (a * remainder * closeness : ℤ) ≤ a * q * A) : remainder * closeness ≤ q * A := by
  have hscaled : a * (remainder * closeness) ≤ a * (q * A) := by
    rw [← mul_assoc, ← mul_assoc]
    exact_mod_cast h
  exact le_of_mul_le_mul_left hscaled ha

/-- A close pair of terms within the bound is a multiple of one of the two fractions, which then
is close itself. -/
theorem IsSound.exists_multiple {b : Bracket} (hb : IsSound A B b) (hend : M < b.q₀ + b.q₁)
    (hfar : M * A < (b.above + b.below) * closeness) {m n : ℕ} (hpos : 0 < m) (hm : m ≤ M)
    (hclose : IsClose A B m n) :
    (∃ a : ℕ, m = a * b.q₀ ∧ n = a * b.p₀ ∧ b.above * closeness ≤ b.q₀ * A) ∨
      ∃ c : ℕ, m = c * b.q₁ ∧ n = c * b.p₁ ∧ b.below * closeness ≤ b.q₁ * A := by
  obtain ⟨a, c, hma, hna, hdiff⟩ := hb.exists_combination m n
  unfold IsClose at hclose
  rw [hdiff] at hclose
  zify at hend hfar hpos hm
  have hq₀ : (0 : ℤ) ≤ b.q₀ := Int.natCast_nonneg _
  have hq₁ : (0 : ℤ) ≤ b.q₁ := Int.natCast_nonneg _
  have hnear : |a * b.above - c * b.below| < (b.above + b.below : ℤ) := by
    refine lt_of_mul_lt_mul_right ?_ (Int.natCast_nonneg closeness)
    calc |a * b.above - c * b.below| * closeness ≤ m * A := hclose
      _ ≤ M * A := by gcongr
      _ < (b.above + b.below) * closeness := hfar
  rcases lt_trichotomy a 0 with ha | rfl | ha
  · -- Opposite signs add the two remainders up, which is too much.
    have hc : 0 < c := by
      by_contra hc
      have hfirst := mul_nonpos_of_nonpos_of_nonneg ha.le hq₀
      have hsecond := mul_nonpos_of_nonpos_of_nonneg (not_lt.1 hc) hq₁
      linarith
    exact absurd (add_le_abs_sub ha hc _ _) (not_le.2 hnear)
  · right
    have hc : 0 < c := by
      by_contra hc
      have hsecond := mul_nonpos_of_nonpos_of_nonneg (not_lt.1 hc) hq₁
      linarith
    obtain ⟨c, rfl⟩ := Int.eq_ofNat_of_zero_le hc.le
    rw [zero_mul, zero_sub, abs_neg, abs_of_nonneg (by positivity)] at hclose
    rw [zero_mul, zero_add] at hma hna
    rw [hma] at hclose
    exact ⟨c, by exact_mod_cast hma, by exact_mod_cast hna,
      near_of_multiple (by exact_mod_cast hc) hclose⟩
  · rcases lt_trichotomy c 0 with hc | rfl | hc
    · have hsum := add_le_abs_sub (neg_neg_of_pos ha) (neg_pos_of_neg hc) b.above b.below
      rw [neg_mul, neg_mul, neg_sub_neg, abs_sub_comm] at hsum
      exact absurd hsum (not_le.2 hnear)
    · left
      obtain ⟨a, rfl⟩ := Int.eq_ofNat_of_zero_le ha.le
      rw [zero_mul, sub_zero, abs_of_nonneg (by positivity)] at hclose
      rw [zero_mul, add_zero] at hma hna
      rw [hma] at hclose
      exact ⟨a, by exact_mod_cast hma, by exact_mod_cast hna,
        near_of_multiple (by exact_mod_cast ha) hclose⟩
    · -- With both signs positive the denominators are passed.
      have hfirst : (b.q₀ : ℤ) ≤ a * b.q₀ := le_mul_of_one_le_left hq₀ ha
      have hsecond : (b.q₁ : ℤ) ≤ c * b.q₁ := le_mul_of_one_le_left hq₁ hc
      linarith

end Bracket

/-- The binade and the number of halves of its unit of those middles that some decimal is close
to without being equal. -/
def closeMiddles : List (ℕ × ℕ) :=
  [(19, 25354575), (29, 24857423), (36, 17109921), (41, 22841339), (42, 22841339),
    (43, 22841339), (44, 22841339), (45, 22841339), (52, 27506719), (100, 28874659),
    (101, 28874659), (200, 25645849), (201, 25645849), (211, 26450737), (240, 33409375),
    (241, 33409375)]

namespace Bracket

/-- What is known of a fraction near the ratio: it is equal to it, or not close, or none of its
multiples is a decimal of eight digits and a middle, or that middle is on the list. -/
def isHarmless (k A M q p remainder : ℕ) : Bool :=
  remainder == 0 || Nat.blt (q * A) (remainder * closeness) || p % 2 == 0 ||
    (Nat.ble (2 ^ 25) (3 * p) || Nat.blt M (3 * q)) &&
      (k != 0 && Nat.blt p (2 ^ 24) || closeMiddles.contains (k, p))

def bound (A B : ℕ) : ℕ := min (10 ^ 8) (2 ^ 25 * B * closeness / (A * (closeness - 1)))

/-- Whether decimals and middles with these units are known to be apart. Units that are too
different have no decimal of eight digits near a middle. -/
def separates (k A B : ℕ) : Bool :=
  Nat.blt (2 * 10 ^ 8 * A) ((if k == 0 then 1 else 2 ^ 24) * B) ||
    Nat.blt (2 * 2 ^ 25 * B) (10 ^ 7 * A) ||
    (let M := bound A B
     let b := refine M 40 (start A B)
     Nat.blt M (b.q₀ + b.q₁) && Nat.blt (M * A) ((b.above + b.below) * closeness) &&
       isHarmless k A M b.q₀ b.p₀ b.above && isHarmless k A M b.q₁ b.p₁ b.below)

theorem isHarmless_spec {k q p remainder a m n : ℕ} (h : isHarmless k A M q p remainder = true)
    (hnear : remainder * closeness ≤ q * A) (hm : m = a * q) (hn : n = a * p) (hbound : m ≤ M)
    (hodd : n % 2 = 1) (hmax : n < 2 ^ 25) (hmin : k ≠ 0 → 2 ^ 24 ≤ n) :
    remainder = 0 ∨ (k, n) ∈ closeMiddles := by
  unfold isHarmless at h
  simp only [Bool.or_eq_true, Bool.and_eq_true, beq_iff_eq, bne_iff_ne, Nat.blt_eq, Nat.ble_eq,
    List.contains_iff_mem] at h
  obtain ⟨haodd, hpodd⟩ : a % 2 = 1 ∧ p % 2 = 1 := by
    rw [hn, Nat.mul_mod] at hodd
    rcases Nat.mod_two_eq_zero_or_one a with ha | ha <;>
      rcases Nat.mod_two_eq_zero_or_one p with hp | hp <;> simp_all
  rcases h with ((h | h) | h) | ⟨hlarge, hlisted⟩
  · exact Or.inl h
  · omega
  · omega
  · right
    have hone : a = 1 := by
      by_contra hne
      have hthree : 3 ≤ a := by omega
      have hp := Nat.mul_le_mul_right p hthree
      have hq := Nat.mul_le_mul_right q hthree
      omega
    rw [hone, one_mul] at hn
    subst hn
    rcases hlisted with ⟨hk, hsmall⟩ | hlisted
    · have := hmin hk
      omega
    · exact hlisted

/-- Decimals of eight digits keep away from the middles, but for those that are equal to one and
a few that are known. -/
theorem separates_spec {k m n : ℕ} (hA : 0 < A) (h : separates k A B = true) (hmin : 10 ^ 7 ≤ m)
    (hmax : m ≤ 10 ^ 8) (hodd : n % 2 = 1) (hnmax : n < 2 ^ 25) (hnmin : k ≠ 0 → 2 ^ 24 ≤ n)
    (hclose : IsClose A B m n) : m * A = n * B ∨ (k, n) ∈ closeMiddles := by
  have hupper : m * A * (closeness - 1) ≤ n * B * closeness := by
    have habs := le_trans (mul_le_mul_of_nonneg_right (le_abs_self (m * A - n * B : ℤ))
      (Int.natCast_nonneg closeness)) hclose
    zify [show 1 ≤ closeness by norm_num [closeness]]
    linarith
  have hlower : n * B * closeness ≤ m * A * (closeness + 1) := by
    have habs := le_trans (mul_le_mul_of_nonneg_right (neg_le_abs (m * A - n * B : ℤ))
      (Int.natCast_nonneg closeness)) hclose
    zify
    linarith
  unfold separates at h
  simp only [Bool.or_eq_true, Bool.and_eq_true, Nat.blt_eq] at h
  rcases h with (h | h) | ⟨⟨⟨hend, hfar⟩, hfirst⟩, hsecond⟩
  · exfalso
    have hn : (if (k == 0) = true then 1 else 2 ^ 24) ≤ n := by
      split
      next => omega
      next hk => exact hnmin (by simpa using hk)
    have hnB := Nat.mul_le_mul_right B hn
    have hmA := Nat.mul_le_mul_right A hmax
    unfold closeness at hlower
    omega
  · exfalso
    have hnB := Nat.mul_le_mul_right B hnmax.le
    have hmA := Nat.mul_le_mul_right A hmin
    unfold closeness at hupper
    omega
  · have hm : m ≤ bound A B := by
      refine le_min hmax ?_
      rw [Nat.le_div_iff_mul_le (Nat.mul_pos hA (by norm_num [closeness]))]
      calc m * (A * (closeness - 1)) = m * A * (closeness - 1) := by ring
        _ ≤ n * B * closeness := hupper
        _ ≤ 2 ^ 25 * B * closeness := by gcongr
    have hsound := isSound_start (A := A) (B := B).refine (M := bound A B) 40
    rcases hsound.exists_multiple hend hfar (by omega) hm hclose with
      ⟨a, hma, hna, hnear⟩ | ⟨c, hmc, hnc, hnear⟩
    · refine (isHarmless_spec hfirst hnear hma hna hm hodd hnmax hnmin).imp_left fun hzero => ?_
      have habove := hsound.above_eq
      rw [hzero, add_zero] at habove
      rw [hma, hna, mul_assoc, mul_assoc, habove]
    · refine (isHarmless_spec hsecond hnear hmc hnc hm hodd hnmax hnmin).imp_left fun hzero => ?_
      have hbelow := hsound.below_eq
      rw [hzero, add_zero] at hbelow
      rw [hmc, hnc, mul_assoc, mul_assoc, hbelow]

end Bracket

theorem separates_units {k i : ℕ} (hk : k < 254) (hi : i < 84) :
    Bracket.separates k (10 ^ i * 2 ^ 150) (2 ^ k * 10 ^ 52) = true := by
  have h : ((List.range 254).all fun k => (List.range 84).all fun i =>
      Bracket.separates k (10 ^ i * 2 ^ 150) (2 ^ k * 10 ^ 52)) = true := by
    decide +kernel
  simp only [List.all_eq_true, List.mem_range] at h
  exact h k hk i hi

end ArchSketch.Number
