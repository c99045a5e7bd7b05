import ArchSketch.Proofs.Json.Numeral
import ArchSketch.Proofs.Number.Single

/-! The numeral of a single precision number reads back as that number, although reading goes by
way of double precision. The few numbers for which the distance to a middle does not tell are read
one by one. -/
namespace ArchSketch.Json

open Number

namespace Numeral

/-- The numbers next to a middle that decimals come too close to are read back all the same. -/
theorem round_reading_closePlaces :
    ∀ r ∈ Binary.closePlaces, ∀ p ∈ [r, r + 1], ∀ negative : Bool,
      Binary.single.round (Binary.double.value
        (ofDecimal negative (Binary.single.shortest p)).reading) = p := by
  decide +kernel

theorem round_reading_shortest {p : ℕ} (hpos : 0 < p) (hfinite : p < Binary.single.infinity)
    (negative : Bool) :
    (ofDecimal negative (Binary.single.shortest p)).IsModerate ∧
      Binary.single.round (Binary.double.value
        (ofDecimal negative (Binary.single.shortest p)).reading) = p := by
  have hten : (1 : ℚ) ≤ 10 := by norm_num
  have hshort := Binary.isShort_single hpos
  obtain ⟨hT, hT'⟩ := Binary.tenExponentOf_bounds hpos hfinite
  have hlow : (10 : ℚ) ^ (-46 : ℤ) ≤ (Binary.single.shortest p).value :=
    (zpow_le_zpow_right₀ hten (by omega)).trans hshort.le_value
  have hhigh : (Binary.single.shortest p).value < (10 : ℚ) ^ (40 : ℤ) :=
    hshort.value_le.trans_lt (zpow_lt_zpow_right₀ (by norm_num) (by omega))
  obtain ⟨hmoderate, hvalue⟩ :=
    isModerate_ofDecimal negative hshort.pos hshort.digits_le hlow hhigh
  refine ⟨hmoderate, ?_⟩
  have hreading := hmoderate.isReading
  rw [hvalue] at hreading
  have hexact (r : ℕ) (hr : r < Binary.single.infinity)
      (hmiddle : (Binary.single.shortest p).value = Binary.single.middle r) :
      Binary.double.value (ofDecimal negative (Binary.single.shortest p)).reading =
        (Binary.single.shortest p).value := by
    obtain ⟨k, n, -, -, hn, -, -, hform⟩ := Binary.single_middle hr
    rw [← hvalue] at hmiddle ⊢
    obtain ⟨hle, hge⟩ := Binary.exponent_of_eq_middle hmoderate.pos hmoderate.lt hr hmiddle
    exact hmoderate.value_reading hle hge (hn.trans (by norm_num)) (by omega)
      (hmiddle.trans hform)
  rcases Binary.isNearest_of_isReading hpos hfinite hreading hexact with hnearest | ⟨r, hr, hp⟩
  · refine Binary.round_eq_of_isNearest (by decide) ?_ hfinite.le hnearest
    have hv : 0 < (Binary.single.shortest p).value := lt_of_lt_of_le (by positivity) hlow
    have hclose := (abs_le.1 ((le_div_iff₀ (by norm_num)).2 hreading)).1
    linarith
  · refine round_reading_closePlaces r hr p ?_ negative
    simpa using hp

theorem toSingle?_zero (negative : Bool) (h : 0 ≤ Binary.single.infinity) :
    (⟨negative, 0, [Digit.ofNat 0], none⟩ : Numeral).toSingle? = some ⟨negative, 0, h⟩ := by
  have hparts : (⟨negative, 0, [Digit.ofNat 0], none⟩ : Numeral).parts = (0, .negSucc 0) := by
    cases negative <;> decide
  have hquotient : divide 0 (0 + 1) = 0 := by
    unfold divide
    rw [if_pos (by norm_num), Binary.value_zero, zero_div, Binary.round_zero]
  unfold toSingle? magnitude?
  rw [hparts]
  dsimp only [isInteger, List.isEmpty_cons, Bool.false_and]
  rw [Nat.cast_zero, Binary.round_zero, hquotient]
  simp [Single.nearest, Binary.value_zero, Binary.round_zero]

/-- The numeral of a finite number reads back as the number. -/
theorem toSingle?_ofSingle {x : Single} (hx : x.isFinite = true) :
    (ofSingle x).toSingle? = some x := by
  obtain ⟨negative, p, hp⟩ := x
  have hfinite : p < Binary.single.infinity := of_decide_eq_true hx
  unfold ofSingle
  dsimp only
  split
  next hzero =>
    subst hzero
    exact toSingle?_zero negative hp
  next hne =>
    obtain ⟨hmoderate, hround⟩ := round_reading_shortest (Nat.pos_of_ne_zero hne) hfinite negative
    unfold toSingle?
    rw [isInteger_ofDecimal, hmoderate.magnitude?, negative_ofDecimal]
    simp [Single.nearest, hround]

end Numeral
end ArchSketch.Json
