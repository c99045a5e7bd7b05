import ArchSketch.Proofs.Number.Rounding

/-! The shortest decimal of a binary number is rounded back to it, and has few digits. The search
for it tries one digit after another and ends once the grid is finer than the neighbours are
apart. -/
namespace ArchSketch.Number

namespace Decimal

variable (d : Decimal)

theorem value_stripFrom (fuel : ℕ) : (stripFrom fuel d).value = d.value := by
  induction fuel generalizing d with
  | zero => rfl
  | succ fuel ih =>
    unfold stripFrom
    split
    next hzero =>
      have hdigits : (d.digits : ℚ) = (d.digits / 10 : ℕ) * 10 := by
        exact_mod_cast (Nat.div_mul_cancel (Nat.dvd_of_mod_eq_zero hzero)).symm
      rw [ih]
      unfold value
      dsimp only
      rw [hdigits, zpow_add_one₀ (by norm_num)]
      ring
    next => rfl

theorem digits_stripFrom (fuel : ℕ) :
    (stripFrom fuel d).digits ≤ d.digits ∧ (0 < d.digits → 0 < (stripFrom fuel d).digits) := by
  induction fuel generalizing d with
  | zero => exact ⟨le_rfl, id⟩
  | succ fuel ih =>
    unfold stripFrom
    split
    next hzero =>
      obtain ⟨hle, hpos⟩ := ih ⟨d.digits / 10, d.exponent + 1⟩
      exact ⟨hle.trans (Nat.div_le_self _ _), fun h => hpos (by dsimp only; omega)⟩
    next => exact ⟨le_rfl, id⟩

/-- A decimal with more digits may stand for the same number. -/
theorem value_eq_finer (r : ℕ) :
    d.value = (d.digits * 10 ^ r : ℕ) * 10 ^ (d.exponent - r) := by
  unfold value
  rw [zpow_sub₀ (by norm_num), zpow_natCast]
  push_cast
  field_simp

theorem value_bounds {d : Decimal} {i : ℕ} {t : ℤ} (hexponent : d.exponent = t - i)
    (hmin : 10 ^ i ≤ d.digits) (hmax : d.digits ≤ 10 ^ (i + 1)) :
    10 ^ t ≤ d.value ∧ d.value ≤ 10 ^ (t + 1) := by
  have hten : (10 : ℚ) ≠ 0 := by norm_num
  unfold value
  rw [hexponent]
  constructor
  · calc (10 : ℚ) ^ t = (10 ^ i : ℕ) * 10 ^ (t - i) := by
          rw [Nat.cast_pow, Nat.cast_ofNat, ← zpow_natCast, ← zpow_add₀ hten, add_sub_cancel]
      _ ≤ d.digits * 10 ^ (t - i) := by gcongr
  · calc d.digits * (10 : ℚ) ^ (t - i) ≤ (10 ^ (i + 1) : ℕ) * 10 ^ (t - i) := by gcongr
      _ = 10 ^ (t + 1) := by
          rw [Nat.cast_pow, Nat.cast_ofNat, ← zpow_natCast, ← zpow_add₀ hten]
          congr 1
          push_cast
          ring

end Decimal

namespace Binary

variable {f : Binary} {n : ℕ} {x : ℚ}

theorem roundEven_eq_floor (x : ℚ) :
    roundEven x = x.floor.toNat ∨ roundEven x = x.floor.toNat + 1 := by
  unfold roundEven
  dsimp only
  split_ifs
  · exact Or.inl rfl
  · exact Or.inr rfl
  · omega

/-- What the search takes from a grid is one of the two decimals around the number, and reads
back as the number. -/
theorem onGrid?_eq_some {e : ℤ} {d : Decimal} (h : f.onGrid? n e = some d) :
    d.exponent = e ∧ f.reaches n d.value = true ∧
      (d.digits = (f.value n / 10 ^ e).floor.toNat ∨
        d.digits = (f.value n / 10 ^ e).floor.toNat + 1) := by
  unfold onGrid? at h
  dsimp only at h
  split at h
  next hbelow habove =>
    obtain rfl := Option.some.inj h
    rcases roundEven_eq_floor (f.value n / 10 ^ e) with heq | heq
    · exact ⟨rfl, by simpa only [heq] using hbelow, Or.inl heq⟩
    · exact ⟨rfl, by simpa only [heq] using habove, Or.inr heq⟩
  next hbelow habove =>
    obtain rfl := Option.some.inj h
    exact ⟨rfl, hbelow, Or.inl rfl⟩
  next hbelow habove =>
    obtain rfl := Option.some.inj h
    exact ⟨rfl, habove, Or.inr rfl⟩
  next => cases h

theorem shortestFrom_spec {stop : ℤ} (hstop : (f.onGrid? n stop).isSome) (fuel : ℕ) (e : ℤ)
    (hle : stop ≤ e) (hlt : e < stop + fuel) :
    ∃ e', stop ≤ e' ∧ e' ≤ e ∧ f.onGrid? n e' = some (f.shortestFrom n fuel e) := by
  induction fuel generalizing e with
  | zero => omega
  | succ fuel ih =>
    unfold shortestFrom
    split
    next d hd => exact ⟨e, hle, le_rfl, hd⟩
    next hnone =>
      have hne : e ≠ stop := by
        rintro rfl
        rw [hnone] at hstop
        cases hstop
      obtain ⟨e', hstop', hle', he'⟩ := ih (e - 1) (by omega) (by push_cast at hlt; omega)
      exact ⟨e', hstop', by omega, he'⟩

theorem floor_bounds (hx : 0 < x) (i : ℕ) :
    10 ^ i ≤ (x / 10 ^ (tenExponentOf x - i)).floor.toNat ∧
      (x / 10 ^ (tenExponentOf x - i)).floor.toNat < 10 ^ (i + 1) ∧
      ((x / 10 ^ (tenExponentOf x - i)).floor.toNat : ℚ) * 10 ^ (tenExponentOf x - i) ≤ x ∧
      x < ((x / 10 ^ (tenExponentOf x - i)).floor.toNat + 1) * 10 ^ (tenExponentOf x - i) := by
  have hten : (10 : ℚ) ≠ 0 := by norm_num
  have hgrid : (0 : ℚ) < 10 ^ (tenExponentOf x - i) := by positivity
  have hfloor : (x / 10 ^ (tenExponentOf x - i)).floor.toNat = ⌊x / 10 ^ (tenExponentOf x - i)⌋₊ :=
    rfl
  have hscaled : 0 ≤ x / 10 ^ (tenExponentOf x - i) := by positivity
  rw [hfloor]
  refine ⟨?_, ?_, ?_, ?_⟩
  · rw [Nat.le_floor_iff hscaled, le_div_iff₀ hgrid]
    push_cast
    rw [← zpow_natCast, ← zpow_add₀ hten, add_sub_cancel]
    exact ten_zpow_tenExponentOf_le hx
  · rw [Nat.floor_lt hscaled, div_lt_iff₀ hgrid]
    push_cast
    have hexponents : ((i + 1 : ℕ) : ℤ) + (tenExponentOf x - i) = tenExponentOf x + 1 := by
      push_cast
      ring
    rw [← zpow_natCast, ← zpow_add₀ hten, hexponents]
    exact lt_ten_zpow_tenExponentOf_succ hx
  · rw [← le_div_iff₀ hgrid]
    exact Nat.floor_le hscaled
  · rw [← div_lt_iff₀ hgrid]
    exact Nat.lt_floor_add_one _

/-- What is known of a decimal that is found within `k + 2` digits. -/
structure IsShort (f : Binary) (n k : ℕ) (d : Decimal) : Prop where
  isNearest : f.IsNearest n d.value
  pos : 0 < d.digits
  digits_le : d.digits ≤ 10 ^ (k + 2)
  le_value : 10 ^ tenExponentOf (f.value n) ≤ d.value
  value_le : d.value ≤ 10 ^ (tenExponentOf (f.value n) + 1)
  /-- It is as near to the number as the finest grid is, or on the grid before that. -/
  near_or_few : |d.value - f.value n| ≤ 10 ^ (tenExponentOf (f.value n) - (k + 1 : ℕ)) ∨
    ∃ m : ℕ, 10 ^ k ≤ m ∧ m ≤ 10 ^ (k + 1) ∧ d.value = m * 10 ^ (tenExponentOf (f.value n) - k)

section

variable {k : ℕ} (hk : 4 * f.share < 10 ^ (k + 1))

include hk

theorem onGrid?_isSome (hn : 0 < n) :
    (f.onGrid? n (tenExponentOf (f.value n) - (k + 1 : ℕ))).isSome := by
  have hx : 0 < f.value n := value_pos hn
  set e := tenExponentOf (f.value n) - (k + 1 : ℕ) with he
  have hgrid : (0 : ℚ) < 10 ^ e := by positivity
  have hfine : 10 ^ e * (4 * f.share) < f.value n := by
    calc (10 : ℚ) ^ e * (4 * f.share) < 10 ^ e * 10 ^ (k + 1) := by
          gcongr
          exact_mod_cast hk
      _ = 10 ^ tenExponentOf (f.value n) := by
          rw [← zpow_natCast, ← zpow_add₀ (by norm_num), he, sub_add_cancel]
      _ ≤ f.value n := ten_zpow_tenExponentOf_le hx
  have hnear {v : ℚ} (hv : |v - f.value n| ≤ 10 ^ e) : f.reaches n v = true := by
    rw [reaches_iff hn]
    apply isNearest_of_abs_sub_lt
    refine lt_of_le_of_lt ?_ hfine
    gcongr
  obtain ⟨-, -, hlow, hhigh⟩ := floor_bounds hx (k + 1)
  rw [← he] at hlow hhigh
  have hbelow : f.reaches n (Decimal.value ⟨(f.value n / 10 ^ e).floor.toNat, e⟩) = true := by
    apply hnear
    unfold Decimal.value
    rw [abs_le]
    constructor <;> linarith
  have habove : f.reaches n (Decimal.value ⟨(f.value n / 10 ^ e).floor.toNat + 1, e⟩) = true := by
    apply hnear
    unfold Decimal.value
    push_cast
    rw [abs_le]
    constructor <;> linarith
  unfold onGrid?
  dsimp only
  rw [hbelow, habove]
  rfl

theorem isShort_shortest (hfuel : k < f.bits) (hn : 0 < n) : f.IsShort n k (f.shortest n) := by
  have hx : 0 < f.value n := value_pos hn
  obtain ⟨e, hstop, hle, he⟩ := shortestFrom_spec (onGrid?_isSome hk hn) (f.bits + 1)
    (tenExponentOf (f.value n)) (by omega) (by push_cast; omega)
  set d := f.shortestFrom n (f.bits + 1) (tenExponentOf (f.value n)) with hd
  have hvalue : (f.shortest n).value = d.value := Decimal.value_stripFrom d _
  obtain ⟨hdigits, hpos⟩ := Decimal.digits_stripFrom d d.digits.log2
  obtain ⟨hexponent, hreaches, hfloor⟩ := onGrid?_eq_some he
  obtain ⟨i, rfl⟩ : ∃ i : ℕ, e = tenExponentOf (f.value n) - i :=
    ⟨(tenExponentOf (f.value n) - e).toNat, by omega⟩
  obtain ⟨hmin, hmax, hlow, hhigh⟩ := floor_bounds hx i
  have hten_pos : 0 < 10 ^ i := by positivity
  have hd_min : 10 ^ i ≤ d.digits := by omega
  have hd_max : d.digits ≤ 10 ^ (i + 1) := by omega
  have hi : i ≤ k + 1 := by omega
  obtain ⟨hle_value, hvalue_le⟩ := Decimal.value_bounds hexponent hd_min hd_max
  constructor
  case isNearest =>
    rw [hvalue]
    exact (reaches_iff hn).1 hreaches
  case pos => exact hpos (by omega)
  case digits_le =>
    calc (f.shortest n).digits ≤ d.digits := hdigits
      _ ≤ 10 ^ (i + 1) := hd_max
      _ ≤ 10 ^ (k + 2) := Nat.pow_le_pow_right (by norm_num) (by omega)
  case le_value => rwa [hvalue]
  case value_le => rwa [hvalue]
  case near_or_few =>
    rw [hvalue]
    -- a decimal that is found early is on the finer grids as well; on the last one it is near
    rcases Nat.lt_or_eq_of_le hi with hlt | rfl
    · right
      obtain ⟨r, rfl⟩ : ∃ r, k = i + r := Nat.exists_eq_add_of_le (by omega)
      refine ⟨d.digits * 10 ^ r, ?_, ?_, ?_⟩
      · calc 10 ^ (i + r) = 10 ^ i * 10 ^ r := pow_add ..
          _ ≤ d.digits * 10 ^ r := Nat.mul_le_mul_right _ hd_min
      · calc d.digits * 10 ^ r ≤ 10 ^ (i + 1) * 10 ^ r := Nat.mul_le_mul_right _ hd_max
          _ = 10 ^ (i + r + 1) := by ring
      · rw [d.value_eq_finer r, hexponent, Nat.cast_add, sub_add_eq_sub_sub]
    · left
      have hgrid : (0 : ℚ) < 10 ^ (tenExponentOf (f.value n) - (k + 1 : ℕ)) := by positivity
      unfold Decimal.value
      rw [hexponent]
      rcases hfloor with h | h
      · rw [h, abs_le]
        constructor <;> linarith
      · rw [h, abs_le]
        push_cast at hlow hhigh ⊢
        constructor <;> linarith

end

end Binary
end ArchSketch.Number
