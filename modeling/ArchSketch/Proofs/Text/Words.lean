import ArchSketch.Proofs.Text.Lines

/-! The words of a text: what is left of it between its blanks. Everything about them follows from
two equations, that a blank parts the words before it from those after it and that a text without
blanks is one word. -/
namespace ArchSketch.Text

variable {a b t w new : List Char} {c : Char}

@[simp] theorem words_nil : words [] = [] := rfl

theorem words_append_cons (hc : isBlank c = true) (a b : List Char) :
    words (a ++ c :: b) = words a ++ words b := by
  simp only [words, pieces_append hc, List.filter_append]

theorem words_of_forall_not (hne : w ≠ []) (h : ∀ c ∈ w, isBlank c = false) : words w = [w] := by
  simp [words, pieces_of_forall_not h, hne]

theorem words_cons_of_isBlank (hc : isBlank c = true) (t : List Char) :
    words (c :: t) = words t := by
  simpa using words_append_cons hc [] t

theorem words_blanks_append (h : ∀ c ∈ w, isBlank c = true) (t : List Char) :
    words (w ++ t) = words t := by
  induction w with
  | nil => rfl
  | cons c w ih =>
    obtain ⟨hc, hw⟩ := List.forall_mem_cons.1 h
    rw [List.cons_append, words_cons_of_isBlank hc, ih hw]

theorem words_append_blanks (h : ∀ c ∈ w, isBlank c = true) (t : List Char) :
    words (t ++ w) = words t := by
  cases w with
  | nil => rw [List.append_nil]
  | cons c w =>
    obtain ⟨hc, hw⟩ := List.forall_mem_cons.1 h
    rw [words_append_cons hc, ← List.append_nil w, words_blanks_append hw, words_nil,
      List.append_nil]

@[simp] theorem words_trim (t : List Char) : words (trim t) = words t := by
  obtain ⟨v, w, hv, hw, ht⟩ := exists_eq_append_trim t
  rw [ht, words_append_blanks hw, words_blanks_append hv, ← ht]

theorem not_isBlank_of_mem_words (hw : w ∈ words t) : ∀ c ∈ w, isBlank c = false :=
  not_cut_of_mem_pieces (List.mem_of_mem_filter hw)

theorem words_ne_nil (hc : c ∈ t) (hblank : isBlank c = false) : words t ≠ [] := by
  induction t with
  | nil => contradiction
  | cons d t ih =>
    by_cases hd : isBlank d = true
    · rw [words_cons_of_isBlank hd]
      rcases List.mem_cons.1 hc with rfl | hc
      · simp [hd] at hblank
      · exact ih hc
    · obtain ⟨p, ps, hp⟩ := List.exists_cons_of_ne_nil (pieces_ne_nil isBlank t)
      simp [words, pieces, hd, hp]

/-- A property of texts holds once it holds of a text without blanks and carries over a blank. -/
theorem induction_on_blanks {P : List Char → Prop} (t : List Char)
    (last : ∀ w, (∀ c ∈ w, isBlank c = false) → P w)
    (cons : ∀ w c t, (∀ d ∈ w, isBlank d = false) → isBlank c = true → P t → P (w ++ c :: t)) :
    P t := by
  have hword : ∀ c ∈ t.takeWhile (!isBlank ·), isBlank c = false := fun c hc => by
    simpa using List.mem_takeWhile_imp hc
  have ht := List.takeWhile_append_dropWhile (p := (!isBlank ·)) (l := t)
  cases hrest : t.dropWhile (!isBlank ·) with
  | nil =>
    rw [hrest, List.append_nil] at ht
    exact last t (ht ▸ hword)
  | cons c rest =>
    have hc : isBlank c = true := by
      have := List.head?_dropWhile_not (!isBlank ·) t
      simpa [hrest] using this
    have hlength : rest.length < t.length := by
      rw [← ht, hrest]
      simp
      omega
    rw [← ht, hrest]
    exact cons _ c rest hword hc (induction_on_blanks rest last cons)
termination_by t.length

/-! Replacing the blanks between words. -/

theorem forall_mem_intercalate {P : Char → Prop} {ws : List (List Char)} (hnew : ∀ c ∈ new, P c)
    (hws : ∀ w ∈ ws, ∀ c ∈ w, P c) : ∀ c ∈ List.intercalate new ws, P c := by
  induction ws with
  | nil => simp
  | cons w ws ih =>
    obtain ⟨hw, hws⟩ := List.forall_mem_cons.1 hws
    cases ws with
    | nil => simpa using hw
    | cons v vs =>
      rw [List.intercalate_cons_cons]
      exact List.forall_mem_append.2 ⟨List.forall_mem_append.2 ⟨hw, hnew⟩, ih hws⟩

theorem replaceBlanksFrom_append (h : ∀ c ∈ w, isBlank c = false) (inRun : Bool) (t : List Char) :
    replaceBlanksFrom new inRun (w ++ t) =
      w ++ replaceBlanksFrom new (inRun && w.isEmpty) t := by
  induction w generalizing inRun with
  | nil => simp
  | cons c w ih =>
    obtain ⟨hc, hw⟩ := List.forall_mem_cons.1 h
    simp [replaceBlanksFrom, hc, ih hw]

theorem replaceBlanksFrom_eq (h : ∀ c ∈ t.getLast?, isBlank c = false) :
    replaceBlanksFrom new true t = List.intercalate new (words t) := by
  induction t using induction_on_blanks with
  | last w hw =>
    rw [← List.append_nil w, replaceBlanksFrom_append hw, List.append_nil]
    by_cases hne : w = []
    · simp [hne, replaceBlanksFrom]
    · simp [words_of_forall_not hne hw, replaceBlanksFrom]
  | cons w c t hw hc ih =>
    obtain ⟨d, hd⟩ : ∃ d, t.getLast? = some d := by
      cases ht : t.getLast? with
      | some d => exact ⟨d, rfl⟩
      | none =>
        have := h c (by simp [List.getLast?_eq_none_iff.1 ht])
        simp [hc] at this
    have hlast : isBlank d = false := h d (by simp [List.getLast?_cons, hd])
    have hrest := ih (by simpa [hd] using hlast)
    obtain ⟨v, vs, hvs⟩ : ∃ v vs, words t = v :: vs :=
      List.exists_cons_of_ne_nil (words_ne_nil (List.mem_of_getLast? hd) hlast)
    rw [replaceBlanksFrom_append hw, words_append_cons hc]
    by_cases hne : w = []
    · simp [hne, replaceBlanksFrom, hc, hrest]
    · rw [words_of_forall_not hne hw, List.singleton_append, hvs, List.intercalate_cons_cons, ← hvs,
        ← hrest]
      simp [hne, replaceBlanksFrom, hc]

/-- In a text without blanks at its ends, replacing the blanks puts `new` between the words. -/
theorem replaceBlanks_of_edges (hfirst : ∀ c ∈ t.head?, isBlank c = false)
    (hlast : ∀ c ∈ t.getLast?, isBlank c = false) :
    replaceBlanks new t = List.intercalate new (words t) := by
  rw [← replaceBlanksFrom_eq hlast]
  cases t with
  | nil => rfl
  | cons c t =>
    have hc : isBlank c = false := hfirst c rfl
    simp [replaceBlanks, replaceBlanksFrom, hc]

end ArchSketch.Text
