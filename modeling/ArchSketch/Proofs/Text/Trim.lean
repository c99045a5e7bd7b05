import ArchSketch.Text.Blank
import ArchSketch.Text.Word
import Mathlib

/-! What trimming takes off a text: blanks at its ends and nothing else. Every fact about a trimmed
text comes from writing the text as its trimmed part followed by blanks. -/
namespace ArchSketch.Text

variable {t w : List Char} {c : Char}

theorem trimEnd_eq_nil_iff : trimEnd t = [] ↔ ∀ c ∈ t, isBlank c = true := by
  induction t with
  | nil => simp [trimEnd]
  | cons c t ih =>
    rw [trimEnd_cons, List.forall_mem_cons, ← ih]
    by_cases hc : isBlank c <;> by_cases ht : trimEnd t = [] <;> simp [hc, ht]

@[simp] theorem trimEnd_nil : trimEnd [] = [] := trimEnd_eq_nil_iff.2 (by simp)

theorem trimEnd_cons_of_not_isBlank (hc : isBlank c = false) :
    trimEnd (c :: t) = c :: trimEnd t := by
  simp [trimEnd_cons, hc]

theorem trimEnd_cons_of_ne_nil (ht : trimEnd t ≠ []) : trimEnd (c :: t) = c :: trimEnd t := by
  simp [trimEnd_cons, ht]

theorem trimEnd_append_of_ne_nil (a : List Char) (ht : trimEnd t ≠ []) :
    trimEnd (a ++ t) = a ++ trimEnd t := by
  induction a with
  | nil => rfl
  | cons c a ih =>
    rw [List.cons_append, trimEnd_cons_of_ne_nil (by simp [ih, ht]), ih, List.cons_append]

theorem trimEnd_append_cons (a : List Char) (hc : isBlank c = false) :
    trimEnd (a ++ c :: t) = a ++ c :: trimEnd t := by
  have ht := trimEnd_cons_of_not_isBlank (t := t) hc
  rw [trimEnd_append_of_ne_nil a (by simp [ht]), ht]

theorem trimEnd_append_blanks (t : List Char) (hw : ∀ c ∈ w, isBlank c = true) :
    trimEnd (t ++ w) = trimEnd t := by
  induction t with
  | nil => exact trimEnd_eq_nil_iff.2 hw
  | cons c t ih => rw [List.cons_append, trimEnd_cons, ih, trimEnd_cons]

theorem exists_eq_trimEnd_append (t : List Char) :
    ∃ w, (∀ c ∈ w, isBlank c = true) ∧ t = trimEnd t ++ w := by
  induction t with
  | nil => exact ⟨[], by simp⟩
  | cons c t ih =>
    obtain ⟨w, hw, ht⟩ := ih
    by_cases h : (trimEnd t).isEmpty && isBlank c
    · refine ⟨c :: t, ?_, by rw [trimEnd_cons, if_pos h, List.nil_append]⟩
      simp only [Bool.and_eq_true, List.isEmpty_iff] at h
      exact List.forall_mem_cons.2 ⟨h.2, trimEnd_eq_nil_iff.1 h.1⟩
    · refine ⟨w, hw, ?_⟩
      rw [trimEnd_cons, if_neg h, List.cons_append, ← ht]

@[simp] theorem trimEnd_trimEnd (t : List Char) : trimEnd (trimEnd t) = trimEnd t := by
  obtain ⟨w, hw, ht⟩ := exists_eq_trimEnd_append t
  conv => rhs; rw [ht]
  exact (trimEnd_append_blanks _ hw).symm

theorem trimEnd_subset (t : List Char) : trimEnd t ⊆ t := by
  obtain ⟨w, -, ht⟩ := exists_eq_trimEnd_append t
  intro c hc
  rw [ht]
  exact List.mem_append_left _ hc

theorem trimStart_cons_of_isBlank (hc : isBlank c = true) : trimStart (c :: t) = trimStart t := by
  simp [trimStart, hc]

theorem trimStart_cons_of_not_isBlank (hc : isBlank c = false) : trimStart (c :: t) = c :: t := by
  simp [trimStart, hc]

theorem trimStart_append_blanks (t : List Char) (hw : ∀ c ∈ w, isBlank c = true) :
    trimStart (w ++ t) = trimStart t := by
  induction w with
  | nil => rfl
  | cons c w ih =>
    obtain ⟨hc, hw⟩ := List.forall_mem_cons.1 hw
    rw [List.cons_append, trimStart_cons_of_isBlank hc, ih hw]

theorem exists_eq_append_trimStart (t : List Char) :
    ∃ w, (∀ c ∈ w, isBlank c = true) ∧ t = w ++ trimStart t :=
  ⟨t.takeWhile isBlank, fun _ hc => List.mem_takeWhile_imp hc,
    List.takeWhile_append_dropWhile.symm⟩

theorem trimStart_eq_nil_iff : trimStart t = [] ↔ ∀ c ∈ t, isBlank c = true := by
  simp [trimStart, List.dropWhile_eq_nil_iff]

theorem not_isBlank_of_trimStart_eq_cons {r : List Char} (h : trimStart t = c :: r) :
    isBlank c = false := by
  have := List.head?_dropWhile_not isBlank t
  rw [show t.dropWhile isBlank = c :: r from h] at this
  simpa using this

theorem trimStart_subset (t : List Char) : trimStart t ⊆ t := (List.dropWhile_sublist _).subset

@[simp] theorem trimStart_trimStart (t : List Char) : trimStart (trimStart t) = trimStart t := by
  cases h : trimStart t with
  | nil => rfl
  | cons c r => exact trimStart_cons_of_not_isBlank (not_isBlank_of_trimStart_eq_cons h)

theorem trimStart_trimEnd (t : List Char) : trimStart (trimEnd t) = trimEnd (trimStart t) := by
  induction t with
  | nil => rfl
  | cons c t ih =>
    by_cases hc : isBlank c
    · rw [trimStart_cons_of_isBlank hc, ← ih]
      by_cases ht : trimEnd t = []
      · simp [trimEnd_cons, ht, hc]
      · rw [trimEnd_cons_of_ne_nil ht, trimStart_cons_of_isBlank hc]
    · rw [Bool.not_eq_true] at hc
      rw [trimEnd_cons_of_not_isBlank hc, trimStart_cons_of_not_isBlank hc,
        trimStart_cons_of_not_isBlank hc, trimEnd_cons_of_not_isBlank hc]

theorem trim_eq_nil_iff : trim t = [] ↔ ∀ c ∈ t, isBlank c = true := by
  rw [trim, ← trimStart_trimEnd, trimStart_eq_nil_iff]
  constructor
  · intro h
    obtain ⟨w, hw, ht⟩ := exists_eq_trimEnd_append t
    intro c hc
    rw [ht] at hc
    exact (List.mem_append.1 hc).elim (h c) (hw c)
  · exact fun h c hc => h c (trimEnd_subset t hc)

@[simp] theorem trim_trimEnd (t : List Char) : trim (trimEnd t) = trim t := by
  rw [trim, trimStart_trimEnd, trimEnd_trimEnd, trim]

@[simp] theorem trimEnd_trim (t : List Char) : trimEnd (trim t) = trim t := trimEnd_trimEnd _

@[simp] theorem trimStart_trim (t : List Char) : trimStart (trim t) = trim t := by
  rw [trim, ← trimStart_trimEnd, trimStart_trimStart]

@[simp] theorem trim_trim (t : List Char) : trim (trim t) = trim t := by
  rw [trim, trimStart_trim, trimEnd_trim]

theorem exists_eq_append_trim (t : List Char) : ∃ v w, (∀ c ∈ v, isBlank c = true) ∧
    (∀ c ∈ w, isBlank c = true) ∧ t = v ++ trim t ++ w := by
  obtain ⟨v, hv, ht⟩ := exists_eq_append_trimStart t
  obtain ⟨w, hw, hs⟩ := exists_eq_trimEnd_append (trimStart t)
  exact ⟨v, w, hv, hw, by rw [List.append_assoc, trim, ← hs, ← ht]⟩

theorem trim_append_blanks {v : List Char} (hv : ∀ c ∈ v, isBlank c = true)
    (hw : ∀ c ∈ w, isBlank c = true) (t : List Char) : trim (v ++ t ++ w) = trim t := by
  rw [List.append_assoc, trim, trimStart_append_blanks _ hv, ← trimStart_trimEnd,
    trimEnd_append_blanks _ hw, trimStart_trimEnd, trim]

theorem not_isBlank_of_mem_head?_trim (h : c ∈ (trim t).head?) : isBlank c = false := by
  obtain ⟨r, hr⟩ := List.head?_eq_some_iff.1 h
  rw [← trimStart_trim] at hr
  exact not_isBlank_of_trimStart_eq_cons hr

theorem not_isBlank_of_mem_getLast?_trim (h : c ∈ (trim t).getLast?) : isBlank c = false := by
  obtain ⟨a, ha⟩ := List.getLast?_eq_some_iff.1 h
  rw [Bool.eq_false_iff]
  intro hc
  have htrim : trimEnd a = a ++ [c] := by
    rw [← trimEnd_append_blanks a (w := [c]) (by simpa using hc), ← ha, trimEnd_trim]
  obtain ⟨w, -, hw⟩ := exists_eq_trimEnd_append a
  simpa [htrim] using congrArg List.length hw

theorem trim_of_edges (hfirst : ∀ c ∈ t.head?, isBlank c = false)
    (hlast : ∀ c ∈ t.getLast?, isBlank c = false) : trim t = t := by
  cases t with
  | nil => rfl
  | cons c t =>
    obtain ⟨a, d, hd⟩ : ∃ a d, c :: t = a ++ [d] :=
      ⟨_, _, (List.dropLast_concat_getLast (List.cons_ne_nil c t)).symm⟩
    rw [trim, trimStart_cons_of_not_isBlank (hfirst c rfl), hd]
    exact trimEnd_append_cons a (hlast d (by simp [hd]))

theorem trim_subset (t : List Char) : trim t ⊆ t := fun _ hc =>
  trimStart_subset t (trimEnd_subset _ hc)

def blanks : List Nat :=
  [9, 10, 11, 12, 13, 0x20, 0x85, 0xA0, 0x1680, 0x2000, 0x2001, 0x2002, 0x2003, 0x2004, 0x2005,
    0x2006, 0x2007, 0x2008, 0x2009, 0x200A, 0x2028, 0x2029, 0x202F, 0x205F, 0x3000]

theorem toNat_mem_blanks (hc : isBlank c = true) : c.toNat ∈ blanks := by
  simp only [isBlank, Bool.or_eq_true, Bool.and_eq_true, decide_eq_true_eq, beq_iff_eq] at hc
  simp only [blanks, List.mem_cons, List.not_mem_nil, or_false]
  omega

/-- What holds of all blanks is seen by looking at each. -/
theorem forall_isBlank (P : Char → Prop) (h : ∀ n ∈ blanks, P (Char.ofNat n))
    (hc : isBlank c = true) : P c := by
  rw [← Char.ofNat_toNat c]
  exact h _ (toNat_mem_blanks hc)

theorem not_isWord_of_isBlank (h : isBlank c = true) : isWord c = false :=
  forall_isBlank (isWord · = false) (by decide +kernel) h

end ArchSketch.Text
