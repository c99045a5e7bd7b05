import ArchSketch.Proofs.Text.Trim
import ArchSketch.Text.Search

/-! Cutting a text into lines and putting it together again are inverse to each other, so a pass
over a whole text is described by what it does to one line and the line feed after it. -/
namespace ArchSketch.Text

variable {cut : Char → Bool} {a b l t : List Char} {c : Char}

theorem pieces_of_forall_not (h : ∀ c ∈ a, cut c = false) : pieces cut a = [a] := by
  induction a with
  | nil => rfl
  | cons c a ih =>
    obtain ⟨hc, ha⟩ := List.forall_mem_cons.1 h
    simp [pieces, hc, ih ha]

theorem pieces_append_cons (ha : ∀ c ∈ a, cut c = false) (hc : cut c = true) :
    pieces cut (a ++ c :: b) = a :: pieces cut b := by
  induction a with
  | nil => simp [pieces, hc]
  | cons d a ih =>
    obtain ⟨hd, ha⟩ := List.forall_mem_cons.1 ha
    simp [pieces, hd, ih ha]

theorem pieces_append (hc : cut c = true) (a b : List Char) :
    pieces cut (a ++ c :: b) = pieces cut a ++ pieces cut b := by
  induction a with
  | nil => simp [pieces, hc]
  | cons d a ih =>
    obtain ⟨q, qs, hq⟩ := List.exists_cons_of_ne_nil (pieces_ne_nil cut a)
    by_cases hd : cut d = true
    · simp [pieces, hd, ih]
    · simp [pieces, hd, ih, hq]

theorem not_cut_of_mem_pieces {p : List Char} (hp : p ∈ pieces cut t) :
    ∀ c ∈ p, cut c = false := by
  induction t generalizing p with
  | nil =>
    rw [pieces, List.mem_singleton] at hp
    simp [hp]
  | cons d t ih =>
    rw [pieces] at hp
    split at hp
    · rcases List.mem_cons.1 hp with rfl | hp
      · simp
      · exact ih hp
    · rename_i hd
      obtain ⟨q, qs, hq⟩ := List.exists_cons_of_ne_nil (pieces_ne_nil cut t)
      rw [hq, List.modifyHead_cons] at hp
      rcases List.mem_cons.1 hp with rfl | hp
      · refine List.forall_mem_cons.2 ⟨by simpa using hd, ih ?_⟩
        rw [hq]
        exact List.mem_cons_self
      · exact ih (hq ▸ List.mem_cons_of_mem _ hp)

theorem intercalate_pieces (d : Char) (t : List Char) :
    List.intercalate [d] (pieces (· == d) t) = t := by
  induction t with
  | nil => rfl
  | cons c t ih =>
    obtain ⟨q, qs, hq⟩ := List.exists_cons_of_ne_nil (pieces_ne_nil (· == d) t)
    by_cases hc : c = d
    · subst hc
      rw [pieces, if_pos (by simp), hq, List.intercalate_cons_cons, ← hq, ih]
      rfl
    · rw [pieces, if_neg (by simpa using hc)]
      rw [hq] at ih ⊢
      rw [List.modifyHead_cons]
      cases qs with
      | nil =>
        rw [List.intercalate_singleton] at ih ⊢
        rw [ih]
      | cons r qs =>
        rw [List.intercalate_cons_cons] at ih ⊢
        rw [List.cons_append, List.cons_append, ih]

theorem lines_of_not_mem (h : '\n' ∉ a) : lines a = [a] :=
  pieces_of_forall_not fun c hc => by simpa using fun e : c = '\n' => h (e ▸ hc)

theorem lines_append_cons (h : '\n' ∉ a) : lines (a ++ '\n' :: b) = a :: lines b :=
  pieces_append_cons (fun c hc => by simpa using fun e : c = '\n' => h (e ▸ hc)) rfl

theorem newline_not_mem_of_mem_lines (hl : l ∈ lines t) : '\n' ∉ l := fun h => by
  simpa using not_cut_of_mem_pieces hl _ h

theorem lines_ne_nil (t : List Char) : lines t ≠ [] := pieces_ne_nil _ t

@[simp] theorem unlines_singleton (l : List Char) : unlines [l] = l := List.intercalate_singleton

theorem unlines_cons {ls : List (List Char)} (hls : ls ≠ []) (l : List Char) :
    unlines (l :: ls) = l ++ '\n' :: unlines ls := by
  obtain ⟨m, ls, rfl⟩ := List.exists_cons_of_ne_nil hls
  rw [unlines, List.intercalate_cons_cons, List.append_assoc]
  rfl

theorem unlines_concat {ls : List (List Char)} (hls : ls ≠ []) (l : List Char) :
    unlines (ls ++ [l]) = unlines ls ++ '\n' :: l := by
  induction ls with
  | nil => exact absurd rfl hls
  | cons m ls ih =>
    cases ls with
    | nil =>
      rw [List.singleton_append, unlines_cons (by simp), unlines_singleton, unlines_singleton]
    | cons n ls =>
      have htail : unlines (m :: n :: ls) = m ++ '\n' :: unlines (n :: ls) :=
        unlines_cons (by simp) m
      rw [List.cons_append, unlines_cons (by simp), ih (by simp), htail, List.append_assoc,
        List.cons_append]

theorem unlines_append_newline {ls : List (List Char)} (hls : ls ≠ []) :
    unlines ls ++ ['\n'] = ls.flatMap (· ++ ['\n']) := by
  induction ls with
  | nil => exact absurd rfl hls
  | cons l ls ih =>
    cases ls with
    | nil => simp
    | cons m ls =>
      rw [unlines_cons (by simp), List.append_assoc, List.cons_append, ih (by simp)]
      simp

@[simp] theorem unlines_lines (t : List Char) : unlines (lines t) = t := intercalate_pieces _ t

theorem lines_unlines {ls : List (List Char)} (hls : ls ≠ []) (h : ∀ l ∈ ls, '\n' ∉ l) :
    lines (unlines ls) = ls := by
  induction ls with
  | nil => exact absurd rfl hls
  | cons l ls ih =>
    obtain ⟨hl, h⟩ := List.forall_mem_cons.1 h
    cases ls with
    | nil => rw [unlines_singleton, lines_of_not_mem hl]
    | cons m ls => rw [unlines_cons (by simp), lines_append_cons hl, ih (by simp) h]

/-- A property of texts holds once it holds of a single line and carries over a line feed. -/
theorem induction_on_lines {P : List Char → Prop} (t : List Char)
    (last : ∀ l, '\n' ∉ l → P l) (cons : ∀ l t, '\n' ∉ l → P t → P (l ++ '\n' :: t)) : P t := by
  rw [← unlines_lines t]
  have h : ∀ l ∈ lines t, '\n' ∉ l := fun l => newline_not_mem_of_mem_lines
  generalize hls : lines t = ls at h
  have hne : ls ≠ [] := hls ▸ lines_ne_nil t
  clear hls
  induction ls with
  | nil => exact absurd rfl hne
  | cons l ls ih =>
    obtain ⟨hl, h⟩ := List.forall_mem_cons.1 h
    cases ls with
    | nil => exact (unlines_singleton l).symm ▸ last l hl
    | cons m ls =>
      rw [unlines_cons (by simp)]
      exact cons l _ hl (ih h (by simp))

theorem lines_append (a b : List Char) : lines (a ++ '\n' :: b) = lines a ++ lines b :=
  pieces_append rfl a b

theorem infix_of_mem_lines (h : l ∈ lines t) : l <:+: t := by
  induction t using induction_on_lines with
  | last m hm =>
    rw [lines_of_not_mem hm, List.mem_singleton] at h
    exact h ▸ List.infix_rfl
  | cons m t hm ih =>
    rw [lines_append_cons hm] at h
    rcases List.mem_cons.1 h with rfl | h
    · exact (List.prefix_append l _).isInfix
    · exact (ih h).trans ⟨m ++ ['\n'], [], by simp⟩

theorem lines_flatMap {ls : List (List Char)} (h : ∀ l ∈ ls, '\n' ∉ l) :
    lines (ls.flatMap (· ++ ['\n'])) = ls ++ [[]] := by
  induction ls with
  | nil => rfl
  | cons l ls ih =>
    obtain ⟨hl, h⟩ := List.forall_mem_cons.1 h
    rw [List.flatMap_cons, List.append_assoc, List.singleton_append, lines_append_cons hl, ih h,
      List.cons_append]

/-! Carriage returns. -/

theorem trimEnd_dropReturn (l : List Char) : trimEnd (dropReturn l) = trimEnd l := by
  unfold dropReturn
  split
  · rename_i h
    obtain ⟨a, rfl⟩ := List.getLast?_eq_some_iff.1 (beq_iff_eq.1 h)
    rw [List.dropLast_concat]
    exact (trimEnd_append_blanks a (by simp; decide)).symm
  · rfl

theorem dropReturn_cons (c : Char) (hl : l ≠ []) : dropReturn (c :: l) = c :: dropReturn l := by
  obtain ⟨d, l, rfl⟩ := List.exists_cons_of_ne_nil hl
  unfold dropReturn
  rw [List.getLast?_cons_cons]
  split <;> rfl

theorem newline_not_mem_dropReturn (h : '\n' ∉ l) : '\n' ∉ dropReturn l := by
  unfold dropReturn
  split
  · exact fun hm => h (List.dropLast_subset _ hm)
  · exact h

abbrev plainEnds (t : List Char) : List Char := substitute ['\r', '\n'] ['\n'] t

theorem plainEnds_of_not_mem (h : '\n' ∉ l) : plainEnds l = l := by
  induction l with
  | nil => rfl
  | cons c l ih =>
    have hl := List.not_mem_of_not_mem_cons h
    have hp : List.isPrefixOf ['\r', '\n'] (c :: l) = false := by
      cases l with
      | nil => simp [List.isPrefixOf]
      | cons d l => simp [List.isPrefixOf, List.ne_of_not_mem_cons hl]
    rw [plainEnds, substitute, substituteFrom, if_neg (by simp [hp])]
    exact congrArg _ (ih hl)

theorem plainEnds_append_cons (h : '\n' ∉ l) :
    plainEnds (l ++ '\n' :: t) = dropReturn l ++ '\n' :: plainEnds t := by
  induction l with
  | nil => rfl
  | cons c l ih =>
    have hl := List.not_mem_of_not_mem_cons h
    cases l with
    | nil =>
      by_cases hc : c = '\r'
      · subst hc
        rfl
      · simp [plainEnds, substitute, substituteFrom, dropReturn, hc, Ne.symm hc]
    | cons d l =>
      have hp : List.isPrefixOf ['\r', '\n'] (c :: d :: (l ++ '\n' :: t)) = false := by
        simp [List.isPrefixOf, List.ne_of_not_mem_cons hl]
      rw [dropReturn_cons c (by simp), List.cons_append, List.cons_append, plainEnds, substitute,
        List.cons_append, substituteFrom, if_neg (by simp [hp])]
      exact congrArg _ (ih hl)

theorem map_trimEnd_lines_plainEnds (t : List Char) :
    (lines (plainEnds t)).map trimEnd = (lines t).map trimEnd := by
  induction t using induction_on_lines with
  | last l hl => rw [plainEnds_of_not_mem hl]
  | cons l t hl ih =>
    rw [plainEnds_append_cons hl, lines_append_cons (newline_not_mem_dropReturn hl),
      lines_append_cons hl, List.map_cons, List.map_cons, ih, trimEnd_dropReturn]

/-- Closed lines are the lines up to blanks at their ends, without an empty last one. -/
theorem map_trimEnd_closedLines (t : List Char) :
    ∃ last, (∀ l ∈ last, l = []) ∧
      (lines t).map trimEnd = (closedLines t).map trimEnd ++ last := by
  obtain ⟨ls, l, hl⟩ : ∃ ls l, lines t = ls ++ [l] :=
    ⟨_, _, (List.dropLast_concat_getLast (lines_ne_nil t)).symm⟩
  refine ⟨if l.isEmpty then [[]] else [], by split <;> simp, ?_⟩
  cases l with
  | nil => simp [closedLines, hl, Function.comp_def, trimEnd_dropReturn]
  | cons c l => simp [closedLines, hl, Function.comp_def, trimEnd_dropReturn]

end ArchSketch.Text
