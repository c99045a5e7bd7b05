import ArchSketch.Proofs.Number.Digits
import ArchSketch.Render.Moment

/-! The names of drawings. A name tells the second and the format of its drawing, because no part of
a moment can be mistaken for another: signs and underscores are no digits, and what stands after the
year has a fixed width. With years of four digits the names of drawings are in the order of time. -/
namespace ArchSketch

open Number

namespace Moment

variable {a b m : Moment} {x y : Int} {n k : Nat} {c : Char}

/-- The first part in which two moments differ tells which of them is the earlier one. -/
def Before (a b : Moment) : Prop :=
  a.year < b.year ∨ a.year = b.year ∧
    (a.month < b.month ∨ a.month = b.month ∧
      (a.day < b.day ∨ a.day = b.day ∧
        (a.hour < b.hour ∨ a.hour = b.hour ∧
          (a.minute < b.minute ∨ a.minute = b.minute ∧ a.second < b.second))))

instance (a b : Moment) : Decidable (a.Before b) := inferInstanceAs (Decidable (_ ∨ _))

/-! The year. -/

def sign (year : Int) : List Char :=
  if year < 0 then ['-'] else if 9999 < year then ['+'] else []

theorem yearText_eq (year : Int) : yearText year = sign year ++ padded 4 year.natAbs := rfl

theorem eq_of_mem_sign (hc : c ∈ sign x) : c = '-' ∨ c = '+' := by
  unfold sign at hc
  split at hc
  · exact .inl (List.mem_singleton.1 hc)
  · split at hc
    · exact .inr (List.mem_singleton.1 hc)
    · contradiction

theorem not_isDigit_of_mem_sign (hc : c ∈ sign x) : c.isDigit = false := by
  rcases eq_of_mem_sign hc with rfl | rfl <;> rfl

theorem sign_yearText (year : Int) : (yearText year).takeWhile (!Char.isDigit ·) = sign year ∧
    (yearText year).dropWhile (!Char.isDigit ·) = padded 4 year.natAbs := by
  have hsign : ∀ c ∈ sign year, (!Char.isDigit c) = true := fun c hc => by
    simp [not_isDigit_of_mem_sign hc]
  obtain ⟨c, rest, hdigits⟩ := List.exists_cons_of_ne_nil (padded_ne_nil 4 year.natAbs)
  have hc : c.isDigit = true := isDigit_of_mem_padded (hdigits ▸ List.mem_cons_self)
  rw [yearText_eq, List.takeWhile_append_of_pos hsign, List.dropWhile_append_of_pos hsign, hdigits]
  simp [hc]

theorem sign_eq_minus_iff (year : Int) : sign year = ['-'] ↔ year < 0 := by
  unfold sign
  split
  · simpa
  · split <;> simp <;> omega

theorem yearText_inj : yearText x = yearText y ↔ x = y := by
  refine ⟨fun h => ?_, fun h => by rw [h]⟩
  have hsign : sign x = sign y := by rw [← (sign_yearText x).1, h, (sign_yearText y).1]
  have hdigits : padded 4 x.natAbs = padded 4 y.natAbs := by
    rw [← (sign_yearText x).2, h, (sign_yearText y).2]
  have habs := padded_inj.1 hdigits
  have hnegative := sign_eq_minus_iff x
  rw [hsign, sign_eq_minus_iff y] at hnegative
  omega

/-! The date and the time of day. -/

def date (m : Moment) : List Char := yearText m.year ++ padded 2 m.month ++ padded 2 m.day

def time (m : Moment) : List Char := padded 2 m.hour ++ padded 2 m.minute ++ padded 2 m.second

theorem stamp_eq (m : Moment) : m.stamp = m.date ++ '_' :: m.time := by
  simp [stamp, date, time]

theorem daysInMonth_le (year : Int) (month : Nat) : daysInMonth year month ≤ 31 := by
  unfold daysInMonth
  split
  · split <;> decide
  · split <;> decide

theorem parts_lt (m : Moment) : m.month < 10 ^ 2 ∧ m.day < 10 ^ 2 ∧ m.hour < 10 ^ 2 ∧
    m.minute < 10 ^ 2 ∧ m.second < 10 ^ 2 := by
  have hmonth := m.month_bounds
  have hday := m.day_bounds
  have hdays := daysInMonth_le m.year m.month
  have hhour := m.hour_lt
  have hminute := m.minute_lt
  have hsecond := m.second_le
  omega

theorem length_padded_eq (hx : n < 10 ^ 2) (hy : k < 10 ^ 2) :
    (padded 2 n).length = (padded 2 k).length := by
  rw [length_padded (by decide) hx, length_padded (by decide) hy]

theorem of_mem_date (hc : c ∈ m.date) : c.isDigit = true ∨ c ∈ sign m.year := by
  simp only [date, yearText_eq, List.mem_append] at hc
  rcases hc with ((hc | hc) | hc) | hc
  · exact .inr hc
  all_goals exact .inl (isDigit_of_mem_padded hc)

theorem isDigit_of_mem_time (hc : c ∈ m.time) : c.isDigit = true := by
  simp only [time, List.mem_append] at hc
  rcases hc with (hc | hc) | hc
  all_goals exact isDigit_of_mem_padded hc

theorem date_inj : a.date = b.date ↔ a.year = b.year ∧ a.month = b.month ∧ a.day = b.day := by
  refine ⟨fun h => ?_, fun ⟨hy, hm, hd⟩ => by simp only [date, hy, hm, hd]⟩
  -- the year, whose width is not known, stands first, so that the parts are split off from the end
  obtain ⟨h, hd⟩ := List.append_inj' h (length_padded_eq a.parts_lt.2.1 b.parts_lt.2.1)
  obtain ⟨hy, hm⟩ := List.append_inj' h (length_padded_eq a.parts_lt.1 b.parts_lt.1)
  exact ⟨yearText_inj.1 hy, padded_inj.1 hm, padded_inj.1 hd⟩

theorem time_inj : a.time = b.time ↔
    a.hour = b.hour ∧ a.minute = b.minute ∧ a.second = b.second := by
  obtain ⟨-, -, -, haminute, hasecond⟩ := a.parts_lt
  obtain ⟨-, -, -, hbminute, hbsecond⟩ := b.parts_lt
  refine ⟨fun h => ?_, fun ⟨hh, hm, hs⟩ => by simp only [time, hh, hm, hs]⟩
  obtain ⟨h, hs⟩ := List.append_inj' h (length_padded_eq hasecond hbsecond)
  obtain ⟨hh, hm⟩ := List.append_inj' h (length_padded_eq haminute hbminute)
  exact ⟨padded_inj.1 hh, padded_inj.1 hm, padded_inj.1 hs⟩

theorem notMem_date (hdigit : c.isDigit = false) (hminus : c ≠ '-') (hplus : c ≠ '+') :
    c ∉ m.date := fun hc => by
  rcases of_mem_date hc with hc | hc
  · rw [hdigit] at hc
    contradiction
  · rcases eq_of_mem_sign hc with rfl | rfl
    · exact hminus rfl
    · exact hplus rfl

theorem notMem_time (hdigit : c.isDigit = false) : c ∉ m.time := fun hc => by
  rw [isDigit_of_mem_time hc] at hdigit
  contradiction

theorem stamp_inj : a.stamp = b.stamp ↔ a = b := by
  refine ⟨fun h => ?_, fun h => by rw [h]⟩
  rw [stamp_eq, stamp_eq, List.append_cons_inj_of_notMem (notMem_date rfl (by decide) (by decide))
    (notMem_time rfl), date_inj, time_inj] at h
  obtain ⟨⟨hyear, hmonth, hday⟩, -, hhour, hminute, hsecond⟩ := h
  cases a
  cases b
  simp_all

theorem dot_notMem_stamp (m : Moment) : '.' ∉ m.stamp := by
  rw [stamp_eq, List.mem_append, List.mem_cons]
  rintro (hdate | hmid | htime)
  · exact notMem_date rfl (by decide) (by decide) hdate
  · contradiction
  · exact notMem_time rfl htime

/-! Years of four digits. -/

def HasPlainYear (m : Moment) : Prop := 0 ≤ m.year ∧ m.year ≤ 9999

instance (m : Moment) : Decidable m.HasPlainYear := inferInstanceAs (Decidable (_ ∧ _))

theorem HasPlainYear.yearText (h : m.HasPlainYear) :
    yearText m.year = padded 4 m.year.natAbs := by
  obtain ⟨hmin, hmax⟩ := h
  rw [yearText_eq, sign, if_neg (by omega), if_neg (by omega), List.nil_append]

theorem stamp_append_lt_iff (ha : a.HasPlainYear) (hb : b.HasPlainYear) (s : List Char) :
    a.stamp ++ s < b.stamp ++ s ↔ a.Before b := by
  obtain ⟨hamonth, haday, hahour, haminute, hasecond⟩ := a.parts_lt
  obtain ⟨hbmonth, hbday, hbhour, hbminute, hbsecond⟩ := b.parts_lt
  have ⟨hamin, hamax⟩ := ha
  have ⟨hbmin, hbmax⟩ := hb
  have hyears : a.year.natAbs < b.year.natAbs ↔ a.year < b.year := by omega
  have hyear : a.year.natAbs = b.year.natAbs ↔ a.year = b.year := by omega
  have htwo : 0 < 2 := by decide
  simp only [stamp, ha.yearText, hb.yearText, List.append_assoc, List.cons_append]
  rw [padded_append_lt_iff (by decide) (by omega) (by omega), hyears, hyear,
    padded_append_lt_iff htwo hamonth hbmonth, padded_append_lt_iff htwo haday hbday,
    List.cons_lt_cons_iff, padded_append_lt_iff htwo hahour hbhour,
    padded_append_lt_iff htwo haminute hbminute, padded_append_lt_iff htwo hasecond hbsecond]
  simp [Before]

end Moment

namespace ImageFormat

theorem name_inj {f g : ImageFormat} : f.name = g.name ↔ f = g := by
  cases f <;> cases g <;> decide

theorem dot_notMem_name (f : ImageFormat) : '.' ∉ f.name.toList := by
  cases f <;> decide

end ImageFormat

theorem artifactName_inj {a b : Moment} {f g : ImageFormat} :
    artifactName a f = artifactName b g ↔ f = g ∧ a = b := by
  unfold artifactName
  generalize "diagram_".toList = opening
  rw [String.ofList_inj, List.append_assoc, List.append_assoc, List.append_cancel_left_eq,
    List.append_cons_inj_of_notMem a.dot_notMem_stamp f.dot_notMem_name, Moment.stamp_inj,
    String.toList_inj, ImageFormat.name_inj]
  tauto

theorem artifactName_lt_iff {a b : Moment} (ha : a.HasPlainYear) (hb : b.HasPlainYear)
    (f : ImageFormat) : artifactName a f < artifactName b f ↔ a.Before b := by
  unfold artifactName
  generalize "diagram_".toList = opening
  rw [String.lt_iff, String.toList_ofList, String.toList_ofList, List.append_assoc,
    List.append_assoc, append_lt_append_iff rfl, Moment.stamp_append_lt_iff ha hb]
  simp

/-- A drawing can only replace one of its own format and second, and drawings of one format are
listed in the order in which they were made. -/
theorem artifactName_tells_moment (a b : Moment) (f g : ImageFormat) :
    (artifactName a f = artifactName b g ↔ f = g ∧ a = b) ∧
      (a.HasPlainYear → b.HasPlainYear → (artifactName a f < artifactName b f ↔ a.Before b)) :=
  ⟨artifactName_inj, fun ha hb => artifactName_lt_iff ha hb f⟩

def leapSecond : Moment := ⟨2015, 6, 30, 23, 59, 60, by decide, by decide, by decide, by decide,
  by decide⟩

def nextDay : Moment := ⟨2015, 7, 1, 0, 0, 0, by decide, by decide, by decide, by decide, by decide⟩

theorem artifactName_tells_nextDay : leapSecond.HasPlainYear ∧ nextDay.HasPlainYear ∧
    artifactName leapSecond .svg < artifactName nextDay .svg :=
  have hleap : leapSecond.HasPlainYear := by decide
  have hnext : nextDay.HasPlainYear := by decide
  ⟨hleap, hnext, ((artifactName_tells_moment leapSecond nextDay .svg .svg).2 hleap hnext).2
    (by decide)⟩

end ArchSketch
