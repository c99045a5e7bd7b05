import ArchSketch.Proofs.Text.Folding
import ArchSketch.Proofs.Text.Lines
import ArchSketch.Proofs.Text.Search

/-! Texts with line ends of two characters. Patterns that never fit at a line feed inside a line fit
at the same places whichever line ends a text has, so a search, and everything made of searches,
can be carried over from one kind of line ends to the other. -/
namespace ArchSketch.Text

variable {α : Type} {p : Pattern α} {widen : α → α} {a b t u word : List Char}
  {words : List (List Char)} {c : Char} {q : Char → Bool} {atLineStart : Bool}

def wideEnds (t : List Char) : List Char := substitute ['\n'] ['\r', '\n'] t

@[simp] theorem wideEnds_nil : wideEnds [] = [] := rfl

@[simp] theorem wideEnds_newline_cons (t : List Char) :
    wideEnds ('\n' :: t) = '\r' :: '\n' :: wideEnds t := by
  simp [wideEnds, substitute, substituteFrom, List.isPrefixOf]

theorem wideEnds_cons (hc : c ≠ '\n') (t : List Char) : wideEnds (c :: t) = c :: wideEnds t := by
  have hne : '\n' ≠ c := hc.symm
  simp [wideEnds, substitute, substituteFrom, List.isPrefixOf, hne]

@[simp] theorem wideEnds_append (a b : List Char) :
    wideEnds (a ++ b) = wideEnds a ++ wideEnds b := by
  induction a with
  | nil => rfl
  | cons c a ih =>
    by_cases hc : c = '\n'
    · simp [hc, ih]
    · simp [wideEnds_cons hc, ih]

theorem wideEnds_of_not_mem (h : '\n' ∉ t) : wideEnds t = t := by
  induction t with
  | nil => rfl
  | cons c t ih =>
    rw [List.mem_cons, not_or] at h
    rw [wideEnds_cons (Ne.symm h.1), ih h.2]

theorem length_wideEnds (t : List Char) : (wideEnds t).length = t.length + t.count '\n' := by
  induction t with
  | nil => rfl
  | cons c t ih =>
    by_cases hc : c = '\n'
    · simp [hc, ih]
      omega
    · simp [wideEnds_cons hc, ih, hc]
      omega

@[simp] theorem wideEnds_eq_nil_iff : wideEnds t = [] ↔ t = [] := by
  rw [← List.length_eq_zero_iff, length_wideEnds, ← List.length_eq_zero_iff]
  have := List.count_le_length (a := '\n') (l := t)
  omega

/-- Of two texts at the start of a third, the longer one stays the longer one. -/
theorem length_wideEnds_lt_iff (ha : a <+: t) (hb : b <+: t) :
    (wideEnds a).length < (wideEnds b).length ↔ a.length < b.length := by
  rcases List.prefix_or_prefix_of_prefix ha hb with h | h
  · obtain ⟨r, rfl⟩ := h
    have hcount := List.count_le_length (a := '\n') (l := r)
    simp only [length_wideEnds, List.length_append, List.count_append]
    omega
  · obtain ⟨r, rfl⟩ := h
    simp only [length_wideEnds, List.length_append, List.count_append]
    omega

theorem any_wideEnds (hr : q '\r' = q '\n') (t : List Char) : (wideEnds t).any q = t.any q := by
  induction t with
  | nil => rfl
  | cons c t ih =>
    by_cases hc : c = '\n'
    · simp [hc, ih, hr]
    · simp [wideEnds_cons hc, ih]

theorem dropWhile_wideEnds (hr : q '\r' = false) (hn : q '\n' = false) (t : List Char) :
    (wideEnds t).dropWhile q = wideEnds (t.dropWhile q) := by
  induction t with
  | nil => rfl
  | cons c t ih =>
    by_cases hc : c = '\n'
    · simp [hc, hr, hn]
    · by_cases hq : q c
      · simp [wideEnds_cons hc, hq, ih]
      · simp [wideEnds_cons hc, hq]

/-! Trimming and lines. -/

theorem trimStart_wideEnds (t : List Char) : trimStart (wideEnds t) = wideEnds (trimStart t) := by
  have hr : isBlank '\r' = true := by decide
  have hn : isBlank '\n' = true := by decide
  induction t with
  | nil => rfl
  | cons c t ih =>
    by_cases hc : c = '\n'
    · simp [hc, trimStart_cons_of_isBlank hr, trimStart_cons_of_isBlank hn, ih]
    · rw [wideEnds_cons hc]
      cases hb : isBlank c with
      | true => rw [trimStart_cons_of_isBlank hb, trimStart_cons_of_isBlank hb, ih]
      | false =>
        rw [trimStart_cons_of_not_isBlank hb, trimStart_cons_of_not_isBlank hb, wideEnds_cons hc]

theorem trimEnd_wideEnds (t : List Char) : trimEnd (wideEnds t) = wideEnds (trimEnd t) := by
  have hr : isBlank '\r' = true := by decide
  have hn : isBlank '\n' = true := by decide
  induction t with
  | nil => rfl
  | cons c t ih =>
    by_cases hc : c = '\n'
    · subst hc
      by_cases ht : trimEnd t = []
      · simp [trimEnd_cons, ih, ht, hr, hn]
      · simp [trimEnd_cons, ih, ht]
    · rw [wideEnds_cons hc, trimEnd_cons, trimEnd_cons, ih]
      by_cases ht : trimEnd t = []
      · by_cases hb : isBlank c
        · simp [ht, hb]
        · simp [ht, hb, wideEnds_cons hc]
      · simp [ht, wideEnds_cons hc]

theorem trim_wideEnds (t : List Char) : trim (wideEnds t) = wideEnds (trim t) := by
  rw [trim, trimStart_wideEnds, trimEnd_wideEnds, trim]

theorem map_trimEnd_lines_wideEnds (t : List Char) :
    (lines (wideEnds t)).map trimEnd = (lines t).map trimEnd := by
  induction t using induction_on_lines with
  | last l hl => rw [wideEnds_of_not_mem hl]
  | cons l t hl ih =>
    have hwide : wideEnds (l ++ '\n' :: t) = (l ++ ['\r']) ++ '\n' :: wideEnds t := by
      simp [wideEnds_of_not_mem hl]
    have hline : trimEnd (l ++ ['\r']) = trimEnd l :=
      trimEnd_append_blanks l (by simp [isBlank])
    rw [hwide, lines_append_cons (by simpa using hl), lines_append_cons hl, List.map_cons,
      List.map_cons, ih, hline]

/-! Words. -/

theorem afterWord?_wideEnds (hr : '\r' ∉ word) (hn : '\n' ∉ word) (t : List Char) :
    afterWord? word (wideEnds t) = (afterWord? word t).map wideEnds := by
  induction word generalizing t with
  | nil => simp [afterWord?]
  | cons w word ih =>
    rw [List.mem_cons, not_or] at hr hn
    cases t with
    | nil => simp [afterWord?]
    | cons c t =>
      by_cases hc : c = '\n'
      · have hreturn : fold '\r' ≠ w := hr.1
        have hfeed : fold '\n' ≠ w := hn.1
        simp [hc, afterWord?, hreturn, hfeed]
      · rw [wideEnds_cons hc, afterWord?, afterWord?]
        split
        · exact ih hr.2 hn.2 t
        · rfl

theorem afterAny?_wideEnds (hwords : ∀ word ∈ words, '\r' ∉ word ∧ '\n' ∉ word) (t : List Char) :
    afterAny? words (wideEnds t) = (afterAny? words t).map wideEnds := by
  induction words with
  | nil => rfl
  | cons word words ih =>
    obtain ⟨hword, hwords⟩ := List.forall_mem_cons.1 hwords
    simp only [afterAny?, List.findSome?_cons, afterWord?_wideEnds hword.1 hword.2] at ih ⊢
    cases afterWord? word t with
    | none => exact ih hwords
    | some r => rfl

/-! Searches. -/

/-- The pattern finds the same whichever line ends a text has, and does not fit at a line feed that
does not stand at the start of a line. -/
structure Pattern.Widens (p : Pattern α) (widen : α → α) : Prop where
  eq_map : ∀ (atLineStart : Bool) {t}, '\r' ∉ t →
    p atLineStart (wideEnds t) = (p atLineStart t).map widen
  newline : ∀ t, p false ('\n' :: t) = none

theorem Pattern.Widens.find?_wideEnds (h : p.Widens widen) (ht : '\r' ∉ t) :
    find? p atLineStart (wideEnds t) =
      (find? p atLineStart t).map fun found => (wideEnds found.1, widen found.2) := by
  induction t generalizing atLineStart with
  | nil =>
    have hnil : p atLineStart [] = (p atLineStart []).map widen := h.eq_map _ ht
    rw [wideEnds_nil, find?, Option.map_map]
    conv => lhs; rw [hnil]
    rw [Option.map_map]
    rfl
  | cons c t ih =>
    have htail := List.not_mem_of_not_mem_cons ht
    have hhead := h.eq_map atLineStart ht
    by_cases hc : c = '\n'
    · subst hc
      rw [wideEnds_newline_cons] at hhead ⊢
      -- between the two characters of a line end nothing fits
      have hfeed := h.newline (wideEnds t)
      have hreturn : ('\r' == '\n') = false := by decide
      cases hx : p atLineStart ('\n' :: t) with
      | some x => simp [find?, hhead, hx]
      | none => simp [find?, hhead, hx, hreturn, hfeed, ih htail, Function.comp_def]
    · rw [wideEnds_cons hc] at hhead ⊢
      cases hx : p atLineStart (c :: t) with
      | some x => simp [find?, hhead, hx]
      | none => simp [find?, hhead, hx, ih htail, Function.comp_def, wideEnds_cons hc]

theorem Pattern.Widens.textBefore_wideEnds (h : p.Widens widen) (ht : '\r' ∉ t) :
    textBefore p (wideEnds t) = wideEnds (textBefore p t) := by
  unfold textBefore
  rw [h.find?_wideEnds ht]
  cases find? p true t <;> rfl

theorem textBefore_isPrefix (p : Pattern α) (t : List Char) : textBefore p t <+: t := by
  obtain ⟨r, ht, -⟩ := exists_eq_textBefore_append p t
  exact ⟨r, ht.symm⟩

end ArchSketch.Text
