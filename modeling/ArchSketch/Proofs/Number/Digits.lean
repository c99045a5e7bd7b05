import ArchSketch.Number.Digits
import Mathlib

/-! Numbers written with a fixed width. Zeros in front do not change the number that digits stand
for, and texts of one length are in the order of characters when the numbers they stand for are in
order. -/
namespace ArchSketch.Number

variable {a b s t : List Char} {c : Char} {m n width : Nat}

theorem isDigit_of_mem_padded (h : c ∈ padded width n) : c.isDigit = true := by
  rcases List.mem_append.1 h with h | h
  · rw [List.eq_of_mem_replicate h]
    rfl
  · exact Nat.isDigit_of_mem_toDigits (by norm_num) (by norm_num) h

theorem padded_ne_nil (width n : Nat) : padded width n ≠ [] :=
  List.append_ne_nil_of_right_ne_nil _ Nat.toDigits_ne_nil

theorem length_padded (hwidth : 0 < width) (h : n < 10 ^ width) :
    (padded width n).length = width := by
  have hlength : (decimal n).length ≤ width :=
    (Nat.length_toDigits_le_iff (by norm_num) hwidth).2 h
  rw [padded, List.length_append, List.length_replicate]
  omega

theorem ofDigitChars_padded (width n : Nat) : Nat.ofDigitChars 10 (padded width n) 0 = n := by
  rw [padded, Nat.ofDigitChars_append, Nat.ofDigitChars_replicate_zero, Nat.mul_zero]
  exact Nat.ofDigitChars_ten_toDigits

theorem padded_inj : padded width m = padded width n ↔ m = n := by
  refine ⟨fun h => ?_, fun h => by rw [h]⟩
  rw [← ofDigitChars_padded width m, h, ofDigitChars_padded]

/-! The order of characters. -/

theorem append_lt_append_iff (h : a.length = b.length) :
    a ++ s < b ++ t ↔ a < b ∨ a = b ∧ s < t := by
  induction a generalizing b with
  | nil =>
    obtain rfl := List.length_eq_zero_iff.1 h.symm
    simp
  | cons c a ih =>
    obtain ⟨d, b, rfl⟩ := List.exists_cons_of_length_eq_add_one h.symm
    have hlength : a.length = b.length := by simpa using h
    simp only [List.cons_append, List.cons_lt_cons_iff, ih hlength, List.cons.injEq]
    tauto

theorem toNat_of_isDigit (h : c.isDigit = true) : '0'.toNat ≤ c.toNat ∧ c.toNat ≤ '9'.toNat := by
  simpa [Char.isDigit, UInt32.le_iff_toNat_le] using h

/-- The first digit of a text counts for the power of ten that its other digits stay below. -/
theorem ofDigitChars_cons (c : Char) (a : List Char) : Nat.ofDigitChars 10 (c :: a) 0 =
    10 ^ a.length * (c.toNat - '0'.toNat) + Nat.ofDigitChars 10 a 0 := by
  rw [Nat.ofDigitChars_cons, Nat.ofDigitChars_eq_ofDigitChars_zero, Nat.mul_zero, Nat.zero_add]

theorem ofDigitChars_lt (h : ∀ c ∈ a, c.isDigit = true) :
    Nat.ofDigitChars 10 a 0 < 10 ^ a.length := by
  induction a with
  | nil => simp
  | cons c a ih =>
    obtain ⟨hc, ha⟩ := List.forall_mem_cons.1 h
    have hrest := ih ha
    have hdigit : c.toNat - '0'.toNat ≤ 9 := by
      have hlast : '9'.toNat = '0'.toNat + 9 := rfl
      have := (toNat_of_isDigit hc).2
      omega
    have hfirst := Nat.mul_le_mul_left (10 ^ a.length) hdigit
    rw [ofDigitChars_cons, List.length_cons, pow_succ]
    omega

theorem lt_iff_ofDigitChars_lt (hlength : a.length = b.length) (ha : ∀ c ∈ a, c.isDigit = true)
    (hb : ∀ c ∈ b, c.isDigit = true) :
    a < b ↔ Nat.ofDigitChars 10 a 0 < Nat.ofDigitChars 10 b 0 := by
  induction a generalizing b with
  | nil =>
    obtain rfl := List.length_eq_zero_iff.1 hlength.symm
    simp
  | cons c a ih =>
    obtain ⟨d, b, rfl⟩ := List.exists_cons_of_length_eq_add_one hlength.symm
    have hlength : a.length = b.length := by simpa using hlength
    obtain ⟨hc, ha⟩ := List.forall_mem_cons.1 ha
    obtain ⟨hd, hb⟩ := List.forall_mem_cons.1 hb
    have hcd : c < d ↔ c.toNat - '0'.toNat < d.toNat - '0'.toNat := by
      have := (toNat_of_isDigit hc).1
      have := (toNat_of_isDigit hd).1
      rw [Char.lt_def, UInt32.lt_iff_toNat_lt]
      change c.toNat < d.toNat ↔ _
      omega
    have heq : c = d ↔ c.toNat - '0'.toNat = d.toNat - '0'.toNat := by
      have := (toNat_of_isDigit hc).1
      have := (toNat_of_isDigit hd).1
      rw [← Char.toNat_inj]
      omega
    have hamax := ofDigitChars_lt ha
    have hbmax := ofDigitChars_lt hb
    rw [List.cons_lt_cons_iff, ih hlength ha hb, hcd, heq, ofDigitChars_cons, ofDigitChars_cons,
      ← hlength]
    rw [← hlength] at hbmax
    generalize c.toNat - '0'.toNat = x at *
    generalize d.toNat - '0'.toNat = y at *
    -- what comes after the first digits cannot make up for a difference between them
    rcases lt_trichotomy x y with hxy | rfl | hxy
    · have := Nat.mul_le_mul_left (10 ^ a.length) hxy
      rw [Nat.mul_succ] at this
      omega
    · omega
    · have := Nat.mul_le_mul_left (10 ^ a.length) hxy
      rw [Nat.mul_succ] at this
      omega

theorem padded_lt_padded_iff (hwidth : 0 < width) (hm : m < 10 ^ width) (hn : n < 10 ^ width) :
    padded width m < padded width n ↔ m < n := by
  rw [lt_iff_ofDigitChars_lt _ (fun c => isDigit_of_mem_padded) fun c => isDigit_of_mem_padded,
    ofDigitChars_padded, ofDigitChars_padded]
  rw [length_padded hwidth hm, length_padded hwidth hn]

theorem padded_append_lt_iff (hwidth : 0 < width) (hm : m < 10 ^ width) (hn : n < 10 ^ width) :
    padded width m ++ s < padded width n ++ t ↔ m < n ∨ m = n ∧ s < t := by
  rw [append_lt_append_iff, padded_lt_padded_iff hwidth hm hn, padded_inj]
  rw [length_padded hwidth hm, length_padded hwidth hn]

end ArchSketch.Number
