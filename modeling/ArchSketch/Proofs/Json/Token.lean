import ArchSketch.Json.Scan
import ArchSketch.Json.Value
import Mathlib

/-! The tokens of a JSON text, as they are written, are read as what was written: every text with
its escapes, and every numeral digit by digit. -/
namespace ArchSketch.Json

open Number

section Text

theorem hexDigit_spec : ∀ n < 16, hexValue? (hexDigit n) = some n := by decide

theorem hexDigit_mod (n : ℕ) : hexDigit (n % 16) = hexDigit n := by
  unfold hexDigit
  rw [Nat.mod_mod]

def unitOf (c : Char) : TextUnit :=
  if c.toNat < 0x20 ∧ c ∉ ['\x08', '\t', '\n', '\x0c', '\r'] then .code c.toNat else .char c

theorem scanUnits_escape (c : Char) (t : List Char) :
    scanUnits (escape c ++ t) = (unitOf c :: (scanUnits t).1, (scanUnits t).2) := by
  unfold escape
  split_ifs with hquote hslash hback htab hline hfeed hreturn hcontrol
  · obtain rfl := beq_iff_eq.1 hquote
    rfl
  · obtain rfl := beq_iff_eq.1 hslash
    rfl
  · obtain rfl := beq_iff_eq.1 hback
    rfl
  · obtain rfl := beq_iff_eq.1 htab
    rfl
  · obtain rfl := beq_iff_eq.1 hline
    rfl
  · obtain rfl := beq_iff_eq.1 hfeed
    rfl
  · obtain rfl := beq_iff_eq.1 hreturn
    rfl
  · have hunit : unitOf c = .code c.toNat := by
      unfold unitOf
      rw [if_pos]
      simp_all
    have hhex : hexNumber? ['0', '0', hexDigit (c.toNat / 16), hexDigit c.toNat] =
        some c.toNat := by
      have hzero : hexValue? '0' = some 0 := by decide
      have hhigh := hexDigit_spec (c.toNat / 16) (by omega)
      have hlow := hexDigit_spec (c.toNat % 16) (by omega)
      rw [hexDigit_mod] at hlow
      simp [hexNumber?, hzero, hhigh, hlow]
      omega
    rw [hunit]
    simp only [List.cons_append, List.nil_append]
    rw [scanUnits, hhex]
  · have hunit : unitOf c = .char c := by
      unfold unitOf
      rw [if_neg]
      simp_all
    have hquote' : (c == '\x22') = false := by simpa using hquote
    rw [hunit, List.cons_append, List.nil_append]
    rw [scanUnits.eq_def]
    split <;> simp_all

theorem characters?_code {n : ℕ} (hleading : isLeading n = false) (htrailing : isTrailing n = false)
    (us : List TextUnit) :
    characters? (.code n :: us) = (characters? us).map (Char.ofNat n :: ·) := by
  rcases us with _ | ⟨u | m, us⟩ <;> simp [characters?, hleading, htrailing]

theorem characters?_unitOf (c : Char) (us : List TextUnit) :
    characters? (unitOf c :: us) = (characters? us).map (c :: ·) := by
  unfold unitOf
  split
  next hcontrol =>
    have hleading : isLeading c.toNat = false := by
      unfold isLeading
      simp
      omega
    have htrailing : isTrailing c.toNat = false := by
      unfold isTrailing
      simp
      omega
    rw [characters?_code hleading htrailing, Char.ofNat_toNat]
  next => rfl

theorem scanUnits_flatMap_escape (cs rest : List Char) :
    scanUnits (cs.flatMap escape ++ '\x22' :: rest) = (cs.map unitOf, .closed rest) := by
  induction cs with
  | nil => rfl
  | cons c cs ih =>
    rw [List.flatMap_cons, List.append_assoc, scanUnits_escape, ih]
    rfl

theorem characters?_map_unitOf (cs : List Char) : characters? (cs.map unitOf) = some cs := by
  induction cs with
  | nil => rfl
  | cons c cs ih =>
    rw [List.map_cons, characters?_unitOf, ih]
    rfl

theorem scanText_escape (s : String) (rest : List Char) :
    scanText (s.toList.flatMap escape ++ '\x22' :: rest) = .done (some s) rest := by
  unfold scanText
  rw [scanUnits_flatMap_escape]
  dsimp only
  rw [characters?_map_unitOf, Option.map_some, String.ofList_toList]

end Text

section Number

/-- Nothing that would go on with a number. -/
def EndsNumber (t : List Char) : Prop :=
  ∀ c ∈ t.head?, c.isDigit = false ∧ c ≠ '.' ∧ c ≠ 'e' ∧ c ≠ 'E'

theorem digitsOf_append {u t : List Char} (hdigits : ∀ c ∈ u, c.isDigit = true)
    (ht : ∀ c ∈ t.head?, c.isDigit = false) :
    digitsOf (u ++ t) = u ∧ (u ++ t).dropWhile Char.isDigit = t := by
  unfold digitsOf
  rw [List.takeWhile_append_of_pos hdigits, List.dropWhile_append_of_pos hdigits]
  rcases t with _ | ⟨c, t⟩
  · simp
  · have hc := ht c rfl
    simp [hc]

theorem isDigit_of_mem_decimal {n : ℕ} {c : Char} (h : c ∈ decimal n) : c.isDigit = true :=
  Nat.isDigit_of_mem_toDigits (by norm_num) (by norm_num) h

theorem decimal_ne_nil (n : ℕ) : decimal n ≠ [] := Nat.toDigits_ne_nil

theorem numberOf_decimal (n : ℕ) : numberOf (decimal n) = n := Nat.ofDigitChars_ten_toDigits

theorem head?_decimal {n : ℕ} (hn : 0 < n) : (decimal n).head? ≠ some '0' := by
  induction n using Nat.strong_induction_on with
  | _ n ih =>
    unfold decimal at ih ⊢
    rcases Nat.lt_or_ge n 10 with hsmall | hlarge
    · rw [Nat.toDigits_of_lt_base hsmall]
      interval_cases n <;> decide
    · rw [Nat.toDigits_of_base_le (by norm_num) hlarge,
        List.head?_append_of_ne_nil _ Nat.toDigits_ne_nil]
      exact ih (n / 10) (by omega) (by omega)

theorem digit_char (d : Digit) :
    d.char.isDigit = true ∧ Digit.ofNat (d.char.toNat - '0'.toNat) = d := by
  revert d
  decide

theorem scanExponent_text (n : Numeral) (e : Option ℤ) {rest : List Char}
    (hrest : EndsNumber rest) (hn : n.exponent = none) :
    scanExponent n (Numeral.exponentText e ++ rest) = .done { n with exponent := e } rest := by
  obtain ⟨negative, whole, fraction, exponent⟩ := n
  subst hn
  rcases e with _ | e
  · rcases rest with _ | ⟨c, rest⟩
    · rfl
    · obtain ⟨-, -, he, hE⟩ := hrest c rfl
      simp [Numeral.exponentText, scanExponent, he, hE]
  · obtain ⟨htake, hdrop⟩ := digitsOf_append (fun c hc => isDigit_of_mem_decimal hc)
      (fun c hc => (hrest c hc).1) (u := decimal e.natAbs)
    have hne : (decimal e.natAbs).isEmpty = false := by simp [decimal_ne_nil]
    rcases lt_or_ge e 0 with hneg | hpos
    · simp [Numeral.exponentText, scanExponent, hneg, htake, hdrop, hne, numberOf_decimal,
        abs_of_neg hneg]
    · simp [Numeral.exponentText, scanExponent, not_lt.2 hpos, htake, hdrop, hne,
        numberOf_decimal, abs_of_nonneg hpos]

theorem endsDigits_exponentText (e : Option ℤ) {rest : List Char} (hrest : EndsNumber rest) :
    ∀ c ∈ (Numeral.exponentText e ++ rest).head?, c.isDigit = false := by
  rcases e with _ | e
  · exact fun c hc => (hrest c hc).1
  · rintro c hc
    obtain rfl : 'e' = c := by simpa [Numeral.exponentText] using hc
    decide

theorem scanFraction_text (n : Numeral) (fraction : List Digit) (e : Option ℤ) {rest : List Char}
    (hrest : EndsNumber rest) (hfraction : n.fraction = []) (hn : n.exponent = none) :
    scanFraction n ((if fraction.isEmpty then [] else '.' :: fraction.map Digit.char) ++
        (Numeral.exponentText e ++ rest)) =
      .done { n with fraction := fraction, exponent := e } rest := by
  have hexponent := scanExponent_text n e hrest hn
  obtain ⟨negative, whole, nfraction, exponent⟩ := n
  subst hfraction
  rcases fraction with _ | ⟨d, ds⟩
  · rw [List.isEmpty_nil, if_pos rfl, List.nil_append]
    unfold scanFraction
    split
    next t ht =>
      exfalso
      rcases e with _ | e
      · rw [Numeral.exponentText, List.nil_append] at ht
        exact (hrest '.' (by rw [ht]; rfl)).2.1 rfl
      · simp [Numeral.exponentText] at ht
    next => exact hexponent
  · obtain ⟨htake, hdrop⟩ := digitsOf_append (u := (d :: ds).map Digit.char)
      (by
        intro c hc
        obtain ⟨d, -, rfl⟩ := List.mem_map.1 hc
        exact (digit_char d).1)
      (endsDigits_exponentText e hrest)
    have hback : ((d :: ds).map Digit.char).map
        (fun c => Digit.ofNat (c.toNat - '0'.toNat)) = d :: ds := by
      rw [List.map_map]
      exact List.map_id'' (fun d => (digit_char d).2) _
    rw [List.isEmpty_cons, if_neg Bool.false_ne_true, List.cons_append, scanFraction, htake, hdrop,
      hback]
    exact scanExponent_text _ e hrest hn

theorem scanNumber_text (n : Numeral) {rest : List Char} (hrest : EndsNumber rest) :
    scanNumber (n.text ++ rest) = .done n rest := by
  obtain ⟨negative, whole, fraction, exponent⟩ := n
  set t := (if fraction.isEmpty then [] else '.' :: fraction.map Digit.char) ++
    (Numeral.exponentText exponent ++ rest) with ht
  have hunsigned : scanUnsigned negative (decimal whole ++ t) =
      .done ⟨negative, whole, fraction, exponent⟩ rest := by
    obtain ⟨htake, hdrop⟩ := digitsOf_append (t := t)
      (fun c hc => isDigit_of_mem_decimal (n := whole) hc) (by
        rw [ht]
        split_ifs
        · exact endsDigits_exponentText exponent hrest
        · rintro c hc
          obtain rfl : '.' = c := by simpa using hc
          decide)
    have hne : (decimal whole).isEmpty = false := by simp [decimal_ne_nil]
    have hzero : ((decimal whole).head? == some '0' && decide (1 < (decimal whole).length)) =
        false := by
      rcases Nat.eq_zero_or_pos whole with rfl | hpos
      · decide
      · simp [head?_decimal hpos]
    unfold scanUnsigned
    dsimp only
    rw [htake, hdrop, hne, hzero, numberOf_decimal, if_neg Bool.false_ne_true,
      if_neg Bool.false_ne_true, ht]
    exact scanFraction_text _ fraction exponent hrest rfl rfl
  have htext : Numeral.text ⟨negative, whole, fraction, exponent⟩ ++ rest =
      (if negative then ['-'] else []) ++ (decimal whole ++ t) := by
    simp [Numeral.text, ht]
  rw [htext]
  cases negative
  · rw [if_neg Bool.false_ne_true, List.nil_append, ← hunsigned]
    unfold scanNumber
    split
    next u hu =>
      exfalso
      have hhead : '-' ∈ decimal whole := by
        rcases hw : decimal whole with _ | ⟨c, cs⟩
        · exact absurd hw (decimal_ne_nil whole)
        · rw [hw] at hu
          obtain rfl : c = '-' := (List.cons.inj hu).1
          exact List.mem_cons_self
      exact absurd (isDigit_of_mem_decimal hhead) (by decide)
    next => rfl
  · rw [if_pos rfl]
    exact hunsigned

end Number
end ArchSketch.Json
