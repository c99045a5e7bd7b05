import ArchSketch.Proofs.Number.Logarithm

/-! Rounding goes to the nearest number of the format. Between two neighbours the middle decides,
and the middle itself goes to the even one, so what is rounded to a place is an interval. -/
namespace ArchSketch.Number
namespace Binary

variable {f : Binary} {x : ℚ}

theorem roundEven_spec (hx : 0 ≤ x) :
    |(roundEven x : ℚ) - x| < 1 / 2 ∨ |(roundEven x : ℚ) - x| = 1 / 2 ∧ roundEven x % 2 = 0 := by
  have hfloor : (x.floor.toNat : ℚ) = ⌊x⌋ := by
    exact_mod_cast congrArg (Int.cast : ℤ → ℚ) (Int.toNat_of_nonneg (Int.floor_nonneg.2 hx))
  have hle := Int.floor_le x
  have hlt := Int.lt_floor_add_one x
  rw [← hfloor] at hle hlt
  unfold roundEven
  dsimp only
  set below := x.floor.toNat
  split_ifs with hlow hhigh
  · left
    rw [abs_lt]
    constructor <;> linarith
  · left
    push_cast
    rw [abs_lt]
    constructor <;> linarith
  · right
    have htie : x = below + 1 / 2 := by linarith
    rcases Nat.mod_two_eq_zero_or_one below with heven | hodd
    · rw [heven, htie]
      constructor
      · norm_num
      · omega
    · rw [hodd, htie]
      constructor
      · push_cast
        norm_num [abs_of_pos]
      · omega

theorem abs_roundEven_sub_le (hx : 0 ≤ x) : |(roundEven x : ℚ) - x| ≤ 1 / 2 := by
  rcases roundEven_spec hx with h | h
  · exact h.le
  · exact h.1.le

theorem share_eq : f.share = 2 ^ f.bits := Nat.one_shiftLeft _

theorem share_pos : 0 < f.share := by
  rw [share_eq]
  positivity

/-- The distance between neighbours in a binade; the first binade holds the numbers below it too. -/
def unit (f : Binary) (k : ℕ) : ℚ := 2 ^ (f.lowest + k)

theorem unit_pos (k : ℕ) : 0 < f.unit k := by
  unfold unit
  positivity

theorem unit_succ (k : ℕ) : f.unit (k + 1) = 2 * f.unit k := by
  unfold unit
  rw [Nat.cast_succ, ← add_assoc, zpow_add_one₀ two_ne_zero, mul_comm]

theorem value_place {k j : ℕ} (hj : j ≤ 2 * f.share) (hk : k = 0 ∨ f.share ≤ j) :
    f.value (k * f.share + j) = j * f.unit k := by
  have hshare : 0 < f.share := share_pos
  unfold value
  rcases Nat.lt_or_ge j f.share with hsmall | hlarge
  · obtain rfl : k = 0 := by omega
    simp [Nat.div_eq_of_lt hsmall, Nat.mod_eq_of_lt hsmall, unit]
  rcases Nat.lt_or_eq_of_le hj with hlt | rfl
  · obtain ⟨i, rfl⟩ := Nat.exists_eq_add_of_le hlarge
    have hi : i < f.share := by omega
    have hplace : k * f.share + (f.share + i) = i + f.share * (k + 1) := by ring
    rw [hplace, Nat.add_mul_div_left _ _ hshare, Nat.div_eq_of_lt hi, Nat.add_mul_mod_self_left,
      Nat.mod_eq_of_lt hi]
    simp [unit]
  · have hplace : k * f.share + 2 * f.share = f.share * (k + 2) := by ring
    rw [hplace, Nat.mul_div_cancel_left _ hshare, Nat.mul_mod_right, if_neg (by omega)]
    calc ((f.share + 0 : ℕ) : ℚ) * 2 ^ (f.lowest + ((k + 2 - 1 : ℕ) : ℤ))
        = f.share * f.unit (k + 1) := by simp [unit]
      _ = (2 * f.share : ℕ) * f.unit k := by
          rw [unit_succ]
          push_cast
          ring

theorem exists_place (f : Binary) (n : ℕ) :
    ∃ k j, n = k * f.share + j ∧ j < 2 * f.share ∧ (k = 0 ∨ f.share ≤ j) := by
  have hdecompose := Nat.div_add_mod n f.share
  have hfraction := Nat.mod_lt n (share_pos (f := f))
  rcases hbinade : n / f.share with _ | k
  · exact ⟨0, n % f.share, by rw [hbinade] at hdecompose; omega, by omega, Or.inl rfl⟩
  · refine ⟨k, f.share + n % f.share, ?_, by omega, Or.inr (by omega)⟩
    rw [hbinade] at hdecompose
    linarith [hdecompose, Nat.mul_succ f.share k, Nat.mul_comm f.share k]

theorem value_succ {k j : ℕ} (hj : j < 2 * f.share) (hk : k = 0 ∨ f.share ≤ j) :
    f.value (k * f.share + j + 1) = f.value (k * f.share + j) + f.unit k := by
  rw [add_assoc, value_place hj (by omega), value_place hj.le hk]
  push_cast
  ring

theorem value_zero : f.value 0 = 0 := by
  have h := value_place (f := f) (k := 0) (j := 0) (Nat.zero_le _) (Or.inl rfl)
  simpa using h

theorem value_strictMono : StrictMono f.value := by
  refine strictMono_nat_of_lt_succ fun n => ?_
  obtain ⟨k, j, rfl, hj, hk⟩ := f.exists_place n
  rw [value_succ hj hk]
  exact lt_add_of_pos_right _ (unit_pos k)

theorem value_pos {n : ℕ} (hn : 0 < n) : 0 < f.value n := by
  have h := value_strictMono (f := f) hn
  rwa [value_zero] at h

/-- No number is more than twice `share` times as far from zero as from the one above it. -/
theorem value_le_gap_above (n : ℕ) : f.value n ≤ (f.value (n + 1) - f.value n) * (2 * f.share) := by
  obtain ⟨k, j, rfl, hj, hk⟩ := f.exists_place n
  have hunit : 0 < f.unit k := unit_pos k
  have hj' : (j : ℚ) ≤ 2 * f.share := by exact_mod_cast hj.le
  rw [value_succ hj hk, add_sub_cancel_left, value_place hj.le hk, mul_comm]
  gcongr

/-- Nor from the one below it, although that is only half as far away at the start of a binade. -/
theorem value_le_gap_below (n : ℕ) :
    f.value (n + 1) ≤ (f.value (n + 1) - f.value n) * (2 * f.share) := by
  have hshare : 0 < f.share := share_pos
  obtain ⟨k, j, hplace, hj, hk⟩ := f.exists_place (n + 1)
  have hunit : 0 < f.unit k := unit_pos k
  have hj' : (j : ℚ) ≤ 2 * f.share := by exact_mod_cast hj.le
  by_cases hinside : 0 < j ∧ (k = 0 ∨ f.share < j)
  · have hprior : n = k * f.share + (j - 1) := by omega
    have hgap : f.value (n + 1) - f.value n = f.unit k := by
      rw [hplace, hprior, value_place hj.le hk, value_place (by omega) (by omega),
        Nat.cast_pred hinside.1]
      ring
    rw [hgap, hplace, value_place hj.le hk, mul_comm]
    gcongr
  · obtain ⟨k, rfl⟩ : ∃ i, k = i + 1 := Nat.exists_eq_succ_of_ne_zero (by
      rintro rfl
      omega)
    obtain rfl : j = f.share := by omega
    have hprior : n = k * f.share + (2 * f.share - 1) := by
      rw [Nat.add_mul] at hplace
      omega
    have hgap : f.value (n + 1) - f.value n = f.unit k := by
      rw [hplace, hprior, value_place hj.le hk, value_place (by omega) (by omega), unit_succ,
        Nat.cast_pred (by omega)]
      push_cast
      ring
    rw [hgap, hplace, value_place hj.le hk, unit_succ]
    linarith

def middle (f : Binary) (n : ℕ) : ℚ := (f.value n + f.value (n + 1)) / 2

theorem middle_place {k j : ℕ} (hj : j < 2 * f.share) (hk : k = 0 ∨ f.share ≤ j) :
    f.middle (k * f.share + j) = (2 * j + 1 : ℕ) * f.unit k / 2 := by
  unfold middle
  rw [value_succ hj hk, value_place hj.le hk]
  push_cast
  ring

theorem middle_strictMono : StrictMono f.middle := by
  intro n m h
  unfold middle
  have hvalue := value_strictMono (f := f) h
  have hnext := value_strictMono (f := f) (Nat.succ_lt_succ h)
  linarith

/-- What is rounded to a place: all that lies between the middles on both sides of it, and the
middles too when the place is even. -/
def IsNearest (f : Binary) (n : ℕ) (x : ℚ) : Prop :=
  (∀ m, n = m + 1 → f.middle m < x ∨ n % 2 = 0 ∧ f.middle m = x) ∧
    (x < f.middle n ∨ n % 2 = 0 ∧ x = f.middle n)

theorem reaches_iff {n : ℕ} (hn : 0 < n) : f.reaches n x = true ↔ f.IsNearest n x := by
  obtain ⟨m, rfl⟩ := Nat.exists_eq_succ_of_ne_zero hn.ne'
  have hlow : (∀ i, m + 1 = i + 1 → f.middle i < x ∨ (m + 1) % 2 = 0 ∧ f.middle i = x) ↔
      (f.middle m < x ∨ (m + 1) % 2 = 0 ∧ f.middle m = x) := by
    constructor
    · intro h
      exact h m rfl
    · rintro h i hi
      obtain rfl : m = i := by omega
      exact h
  unfold IsNearest
  rw [hlow]
  unfold reaches middle
  simp only [Nat.succ_eq_add_one, Nat.add_sub_cancel]
  split
  next heven => simp [heven, le_iff_lt_or_eq]
  next hodd => simp [hodd]

theorem IsNearest.eq {n r : ℕ} (hn : f.IsNearest n x) (hr : f.IsNearest r x) : n = r := by
  have hnot : ∀ {n r : ℕ}, f.IsNearest n x → f.IsNearest r x → ¬ n < r := by
    intro n r hn hr hlt
    obtain ⟨m, rfl⟩ : ∃ m, r = m + 1 := Nat.exists_eq_succ_of_ne_zero (by omega)
    have hmiddle : f.middle n ≤ f.middle m := middle_strictMono.monotone (by omega)
    rcases hn.2 with hxn | ⟨heven, hxn⟩
    · rcases hr.1 m rfl with hxm | ⟨-, hxm⟩ <;> linarith
    · rcases hr.1 m rfl with hxm | ⟨heven', hxm⟩
      · linarith
      · obtain rfl : n = m := middle_strictMono.injective (hxn.symm.trans hxm.symm)
        omega
  have hnr := hnot hn hr
  have hrn := hnot hr hn
  omega

theorem IsNearest.of_moved {n : ℕ} {y : ℚ} (h : f.IsNearest n x)
    (hmoved : ∀ r, n = r ∨ n = r + 1 → |x - f.middle r| ≤ |y - x| → y = x) :
    f.IsNearest n y := by
  constructor
  · intro r hr
    by_cases hlt : f.middle r < y
    · exact Or.inl hlt
    · have hle : f.middle r ≤ x := by
        rcases h.1 r hr with h | h
        · exact h.le
        · exact h.2.le
      have hyx : y = x := by
        apply hmoved r (Or.inr hr)
        rw [abs_of_nonneg (by linarith), abs_of_nonpos (by linarith)]
        linarith
      rw [hyx]
      exact h.1 r hr
  · by_cases hlt : y < f.middle n
    · exact Or.inl hlt
    · have hle : x ≤ f.middle n := by
        rcases h.2 with h | h
        · exact h.le
        · exact h.2.le
      have hyx : y = x := by
        apply hmoved n (Or.inl rfl)
        rw [abs_of_nonpos (by linarith), abs_of_nonneg (by linarith)]
        linarith
      rw [hyx]
      exact h.2

theorem isNearest_value {n : ℕ} : f.IsNearest n (f.value n) := by
  constructor
  · rintro m rfl
    left
    have := value_strictMono (f := f) (Nat.lt_succ_self m)
    unfold middle
    linarith
  · left
    have := value_strictMono (f := f) (Nat.lt_succ_self n)
    unfold middle
    linarith

theorem isNearest_of_abs_sub_lt {n : ℕ} (h : |x - f.value n| * (4 * f.share) < f.value n) :
    f.IsNearest n x := by
  have hshare : (0 : ℚ) < 2 * f.share := by exact_mod_cast Nat.mul_pos two_pos share_pos
  have hclose {gap : ℚ} (hgap : f.value n ≤ gap * (2 * f.share)) : 2 * |x - f.value n| < gap := by
    refine lt_of_mul_lt_mul_right ?_ hshare.le
    linarith
  have hlow := neg_abs_le (x - f.value n)
  have hhigh := le_abs_self (x - f.value n)
  constructor
  · rintro m rfl
    left
    have := hclose (value_le_gap_below m)
    unfold middle
    linarith
  · left
    have := hclose (value_le_gap_above n)
    unfold middle
    linarith

/-- The binade of a number, all of the least one counted as the first. -/
def binadeOf (f : Binary) (x : ℚ) : ℕ := (max (exponentOf x - f.bits) f.lowest - f.lowest).toNat

theorem unit_binadeOf : f.unit (f.binadeOf x) = 2 ^ max (exponentOf x - f.bits) f.lowest := by
  unfold unit binadeOf
  congr 1
  omega

theorem lt_unit_binadeOf (hx : 0 < x) : x < 2 * f.share * f.unit (f.binadeOf x) := by
  have hexponent := lt_two_zpow_exponentOf_succ hx
  rw [unit_binadeOf, share_eq]
  push_cast
  calc x < 2 ^ (exponentOf x + 1) := hexponent
    _ = 2 * 2 ^ f.bits * 2 ^ (exponentOf x - f.bits) := by
        rw [zpow_sub₀ two_ne_zero, zpow_natCast, zpow_add_one₀ two_ne_zero]
        field_simp
    _ ≤ 2 * 2 ^ f.bits * 2 ^ max (exponentOf x - f.bits) f.lowest := by
        gcongr
        · norm_num
        · exact le_max_left _ _

theorem unit_binadeOf_le (hx : 0 < x) :
    f.binadeOf x = 0 ∨ f.share * f.unit (f.binadeOf x) ≤ x := by
  rcases le_total (exponentOf x - f.bits) f.lowest with hsmall | hlarge
  · left
    unfold binadeOf
    rw [max_eq_right hsmall, sub_self, Int.toNat_zero]
  · right
    rw [unit_binadeOf, max_eq_left hlarge, share_eq]
    push_cast
    calc (2 : ℚ) ^ f.bits * 2 ^ (exponentOf x - f.bits) = 2 ^ exponentOf x := by
          rw [zpow_sub₀ two_ne_zero, zpow_natCast]
          field_simp
      _ ≤ x := two_zpow_exponentOf_le hx

def significandOf (f : Binary) (x : ℚ) : ℕ := roundEven (x / f.unit (f.binadeOf x))

theorem significandOf_spec (hx : 0 < x) :
    |(f.significandOf x : ℚ) - x / f.unit (f.binadeOf x)| < 1 / 2 ∨
      |(f.significandOf x : ℚ) - x / f.unit (f.binadeOf x)| = 1 / 2 ∧ f.significandOf x % 2 = 0 :=
  roundEven_spec (div_nonneg hx.le (unit_pos _).le)

theorem abs_significandOf_sub_le (hx : 0 < x) :
    |(f.significandOf x : ℚ) - x / f.unit (f.binadeOf x)| ≤ 1 / 2 :=
  abs_roundEven_sub_le (div_nonneg hx.le (unit_pos _).le)

theorem significandOf_le (hx : 0 < x) : f.significandOf x ≤ 2 * f.share := by
  have hscaled : x / f.unit (f.binadeOf x) < 2 * f.share := by
    rw [div_lt_iff₀ (unit_pos _)]
    exact lt_unit_binadeOf hx
  have hround := (abs_le.1 (abs_significandOf_sub_le (f := f) hx)).2
  have hlt : (f.significandOf x : ℚ) < (2 * f.share + 1 : ℕ) := by
    push_cast
    linarith
  exact Nat.lt_succ_iff.1 (by exact_mod_cast hlt)

theorem share_le_significandOf (hx : 0 < x) : f.binadeOf x = 0 ∨ f.share ≤ f.significandOf x := by
  refine (unit_binadeOf_le (f := f) hx).imp_right fun hle => ?_
  have hscaled : f.share ≤ x / f.unit (f.binadeOf x) := by
    rw [le_div_iff₀ (unit_pos _)]
    exact hle
  have hround := (abs_le.1 (abs_significandOf_sub_le (f := f) hx)).1
  have hlt : ((f.share : ℕ) : ℚ) < (f.significandOf x + 1 : ℕ) := by
    push_cast
    linarith
  exact Nat.lt_succ_iff.1 (by exact_mod_cast hlt)

def placeOf (f : Binary) (x : ℚ) : ℕ := f.binadeOf x * f.share + f.significandOf x

theorem round_eq (hx : 0 < x) : f.round x = min f.infinity (f.placeOf x) := by
  unfold round
  rw [if_neg (not_le.2 hx)]
  unfold placeOf significandOf
  rw [unit_binadeOf]
  rfl

theorem value_placeOf (hx : 0 < x) :
    f.value (f.placeOf x) = f.significandOf x * f.unit (f.binadeOf x) :=
  value_place (significandOf_le hx) (share_le_significandOf hx)

theorem value_placeOf_sub (hx : 0 < x) : f.value (f.placeOf x) - x =
    (f.significandOf x - x / f.unit (f.binadeOf x)) * f.unit (f.binadeOf x) := by
  rw [value_placeOf hx, sub_mul, div_mul_cancel₀ _ (unit_pos _).ne']

theorem abs_value_placeOf_sub_le (hx : 0 < x) :
    |f.value (f.placeOf x) - x| ≤ f.unit (f.binadeOf x) / 2 := by
  have hunit : 0 < f.unit (f.binadeOf x) := unit_pos _
  rw [value_placeOf_sub hx, abs_mul, abs_of_pos hunit]
  calc |(f.significandOf x : ℚ) - x / f.unit (f.binadeOf x)| * f.unit (f.binadeOf x)
      ≤ 1 / 2 * f.unit (f.binadeOf x) := by
        gcongr
        exact abs_significandOf_sub_le hx
    _ = f.unit (f.binadeOf x) / 2 := by ring

theorem placeOf_mod_two (hbits : 0 < f.bits) : f.placeOf x % 2 = f.significandOf x % 2 := by
  have hshare : f.share % 2 = 0 := by
    rw [share_eq, Nat.pow_mod, Nat.mod_self, Nat.zero_pow hbits, Nat.zero_mod]
  unfold placeOf
  rw [Nat.add_mod, Nat.mul_mod, hshare, mul_zero, Nat.zero_mod, zero_add, Nat.mod_mod]

/-- The place of a number is less than half a unit away, or half a unit when it is even. -/
theorem placeOf_spec (hbits : 0 < f.bits) (hx : 0 < x) :
    |f.value (f.placeOf x) - x| < f.unit (f.binadeOf x) / 2 ∨
      |f.value (f.placeOf x) - x| = f.unit (f.binadeOf x) / 2 ∧ f.placeOf x % 2 = 0 := by
  have hunit : 0 < f.unit (f.binadeOf x) := unit_pos _
  rw [value_placeOf_sub hx, abs_mul, abs_of_pos hunit, placeOf_mod_two hbits]
  refine (significandOf_spec hx).imp (fun h => ?_) fun h => ⟨?_, h.2⟩
  · linarith [mul_lt_mul_of_pos_right h hunit]
  · rw [h.1]
    ring

private theorem add_unit_le_value_succ {k j : ℕ} (hj : j ≤ 2 * f.share) (hk : k = 0 ∨ f.share ≤ j) :
    f.value (k * f.share + j) + f.unit k ≤ f.value (k * f.share + j + 1) := by
  have hshare : 0 < f.share := share_pos
  have hunit : 0 < f.unit k := unit_pos k
  rcases Nat.lt_or_eq_of_le hj with hlt | rfl
  · rw [value_succ hlt hk]
  · have hplace : k * f.share + 2 * f.share = (k + 1) * f.share + f.share := by ring
    rw [hplace, value_succ (by omega) (Or.inr le_rfl), unit_succ]
    linarith

theorem add_half_unit_le_middle_placeOf (hx : 0 < x) :
    f.value (f.placeOf x) + f.unit (f.binadeOf x) / 2 ≤ f.middle (f.placeOf x) := by
  have hgap := add_unit_le_value_succ (significandOf_le (f := f) hx) (share_le_significandOf hx)
  unfold middle placeOf
  linarith

/-- The middle below a place is half a unit away. At the start of a binade it is nearer, but the
number is not below its place there. -/
theorem middle_below_placeOf (hx : 0 < x) {m : ℕ} (hm : f.placeOf x = m + 1) :
    f.middle m = f.value (f.placeOf x) - f.unit (f.binadeOf x) / 2 ∨
      f.value (f.placeOf x) ≤ x := by
  have hvalue := value_placeOf (f := f) hx
  by_cases hinside : 0 < f.significandOf x ∧ (f.binadeOf x = 0 ∨ f.share < f.significandOf x)
  · left
    have hprior : m = f.binadeOf x * f.share + (f.significandOf x - 1) := by
      unfold placeOf at hm
      omega
    have hle := significandOf_le (f := f) hx
    unfold middle
    rw [← hm, hvalue, hprior, value_place (by omega) (by omega), Nat.cast_pred hinside.1]
    ring
  · right
    have hsignificand := share_le_significandOf (f := f) hx
    have hshare : 0 < f.share := share_pos
    have hplace : f.placeOf x ≠ 0 := by omega
    have hstart : f.binadeOf x ≠ 0 ∧ f.significandOf x = f.share := by
      unfold placeOf at hplace
      rcases hsignificand with h | h
      · rw [h, zero_mul, zero_add] at hplace
        omega
      · omega
    rw [hvalue, hstart.2]
    exact (unit_binadeOf_le hx).resolve_left hstart.1

theorem isNearest_placeOf (hbits : 0 < f.bits) (hx : 0 < x) : f.IsNearest (f.placeOf x) x := by
  have hspec := placeOf_spec hbits hx
  constructor
  · intro m hm
    rcases middle_below_placeOf hx hm with hmiddle | hle
    · rw [hmiddle]
      rcases hspec with h | ⟨h, heven⟩
      · left
        linarith [le_abs_self (f.value (f.placeOf x) - x)]
      · have hle : f.value (f.placeOf x) - f.unit (f.binadeOf x) / 2 ≤ x := by
          linarith [le_abs_self (f.value (f.placeOf x) - x)]
        exact hle.lt_or_eq.imp id fun h => ⟨heven, h⟩
    · left
      have hlt : f.value m < f.value (m + 1) := value_strictMono (Nat.lt_succ_self m)
      rw [hm] at hle
      unfold middle
      linarith
  · have hmiddle := add_half_unit_le_middle_placeOf (f := f) hx
    rcases hspec with h | ⟨h, heven⟩
    · left
      linarith [neg_abs_le (f.value (f.placeOf x) - x)]
    · have hle : x ≤ f.middle (f.placeOf x) := by
        linarith [neg_abs_le (f.value (f.placeOf x) - x)]
      exact hle.lt_or_eq.imp id fun h => ⟨heven, h⟩

theorem round_zero : f.round 0 = 0 := by
  unfold round
  rw [if_pos le_rfl]

theorem round_eq_of_isNearest (hbits : 0 < f.bits) {n : ℕ} (hx : 0 < x) (hn : n ≤ f.infinity)
    (h : f.IsNearest n x) : f.round x = n := by
  rw [round_eq hx, (isNearest_placeOf hbits hx).eq h, Nat.min_eq_right hn]

theorem abs_value_round_sub_le (hlow : f.share * f.unit 0 ≤ x)
    (hhigh : 2 * x < f.value f.infinity) :
    f.round x < f.infinity ∧ |f.value (f.round x) - x| * (2 * f.share) ≤ x := by
  have hshare : (1 : ℚ) ≤ f.share := by exact_mod_cast share_pos
  have hx : 0 < x := by
    have := unit_pos (f := f) 0
    exact lt_of_lt_of_le (by positivity) hlow
  have hunit : f.share * f.unit (f.binadeOf x) ≤ x := by
    rcases unit_binadeOf_le (f := f) hx with h | h
    · rwa [h]
    · exact h
  have herror : |f.value (f.placeOf x) - x| * (2 * f.share) ≤ x := by
    calc |f.value (f.placeOf x) - x| * (2 * f.share)
        ≤ f.unit (f.binadeOf x) / 2 * (2 * f.share) := by
          gcongr
          exact abs_value_placeOf_sub_le hx
      _ = f.share * f.unit (f.binadeOf x) := by ring
      _ ≤ x := hunit
  have hfinite : f.placeOf x < f.infinity := by
    rw [← value_strictMono.lt_iff_lt (f := f.value)]
    have hle := le_abs_self (f.value (f.placeOf x) - x)
    have habs := abs_nonneg (f.value (f.placeOf x) - x)
    nlinarith
  have hround : f.round x = f.placeOf x := by rw [round_eq hx, Nat.min_eq_right hfinite.le]
  rw [hround]
  exact ⟨hfinite, herror⟩

private theorem exists_value_eq (k : ℕ) {m : ℕ} (hm : m < 2 * f.share) :
    ∃ n, f.value n = m * f.unit k := by
  induction k generalizing m with
  | zero => exact ⟨0 * f.share + m, value_place hm.le (Or.inl rfl)⟩
  | succ k ih =>
    rcases Nat.lt_or_ge m f.share with hsmall | hlarge
    · obtain ⟨n, hn⟩ := ih (m := 2 * m) (by omega)
      refine ⟨n, ?_⟩
      rw [hn, unit_succ]
      push_cast
      ring
    · exact ⟨(k + 1) * f.share + m, value_place hm.le (Or.inr hlarge)⟩

theorem value_round_mul_unit (hbits : 0 < f.bits) {k m : ℕ} (hpos : 0 < m) (hm : m < 2 * f.share)
    (hhigh : m * f.unit k < f.value f.infinity) :
    f.round (m * f.unit k) < f.infinity ∧ f.value (f.round (m * f.unit k)) = m * f.unit k := by
  obtain ⟨n, hn⟩ := exists_value_eq k hm
  have hx : 0 < m * f.unit k := by
    have := unit_pos (f := f) k
    positivity
  have hfinite : n < f.infinity := by
    rw [← value_strictMono.lt_iff_lt (f := f.value), hn]
    exact hhigh
  have hround : f.round (m * f.unit k) = n := by
    apply round_eq_of_isNearest hbits hx hfinite.le
    rw [← hn]
    exact isNearest_value
  rw [hround]
  exact ⟨hfinite, hn⟩

end Binary
end ArchSketch.Number
