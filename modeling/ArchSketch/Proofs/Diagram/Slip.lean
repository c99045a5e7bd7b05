import ArchSketch.Diagram.Slip
import ArchSketch.Proofs.Text.Lines

/-! Slips and their repair. A slip reaches from the start of a line to a comma in the same line and
leaves the rest of the line open, so neither blanks at the end nor other lines have a say in it, and
repairing a whole text repairs each of its lines. -/
namespace ArchSketch.Diagram

open Text

variable {line t : List Char} {s : Slip} {c : Char}

def IsCapital (c : Char) : Prop := 'A' ≤ c ∧ c ≤ 'Z'

def IsLetter (c : Char) : Prop := IsCapital c ∨ 'a' ≤ c ∧ c ≤ 'z'

theorem isUpper_iff : c.isUpper = true ↔ IsCapital c := by
  simp [IsCapital, Char.isUpper, Char.le_def]

theorem isAlpha_iff : c.isAlpha = true ↔ IsLetter c := by
  simp [IsLetter, IsCapital, Char.isAlpha, Char.isUpper, Char.isLower, Char.le_def]

theorem toNat_of_isUpper (h : c.isUpper = true) : 65 ≤ c.toNat ∧ c.toNat ≤ 90 := by
  simpa [Char.isUpper, UInt32.le_iff_toNat_le] using h

namespace Slip

/-! The parts of a slip. -/

/-- A name goes on with letters, each of which may have one underscore before it. -/
inductive GoesOn : List Char → Prop
  | nil : GoesOn []
  | letter {c : Char} {t : List Char} (hc : IsLetter c) (ht : GoesOn t) : GoesOn (c :: t)
  | part {c : Char} {t : List Char} (hc : IsLetter c) (ht : GoesOn t) : GoesOn ('_' :: c :: t)

theorem isNameChar_iff : isNameChar c = true ↔ IsLetter c ∨ c = '_' := by
  rw [isNameChar, Bool.or_eq_true, isAlpha_iff, beq_iff_eq]

theorem ne_underscore_of_isLetter (h : IsLetter c) : c ≠ '_' := by
  rintro rfl
  revert h
  unfold IsLetter IsCapital
  decide

theorem tail_pieces_cons (hc : c ≠ '_') (t : List Char) :
    (pieces (· == '_') (c :: t)).tail = (pieces (· == '_') t).tail := by
  obtain ⟨p, ps, hp⟩ := List.exists_cons_of_ne_nil (pieces_ne_nil (· == '_') t)
  simp [pieces, hc, hp]

theorem goesOn_iff (t : List Char) : GoesOn t ↔ (∀ c ∈ t, isNameChar c = true) ∧
    [] ∉ (pieces (· == '_') t).tail := by
  constructor
  · intro h
    induction h with
    | nil => simp [pieces]
    | letter hc ht ih =>
      have hne := ne_underscore_of_isLetter hc
      rw [tail_pieces_cons hne, List.forall_mem_cons]
      exact ⟨⟨isNameChar_iff.2 (.inl hc), ih.1⟩, ih.2⟩
    | @part c t hc ht ih =>
      have hne := ne_underscore_of_isLetter hc
      obtain ⟨p, ps, hp⟩ := List.exists_cons_of_ne_nil (pieces_ne_nil (· == '_') t)
      have hps := ih.2
      rw [hp] at hps
      rw [List.forall_mem_cons, List.forall_mem_cons]
      refine ⟨⟨rfl, isNameChar_iff.2 (.inl hc), ih.1⟩, ?_⟩
      simpa [pieces, hne, hp] using hps
  · -- by the length of the text, as an underscore takes the letter after it along
    induction hn : t.length using Nat.strong_induction_on generalizing t with
    | _ n ih =>
      rintro ⟨hchars, hpieces⟩
      cases t with
      | nil => exact .nil
      | cons c t =>
        obtain ⟨hc, ht⟩ := List.forall_mem_cons.1 hchars
        rcases isNameChar_iff.1 hc with hc | rfl
        · rw [tail_pieces_cons (ne_underscore_of_isLetter hc)] at hpieces
          exact .letter hc (ih t.length (hn ▸ Nat.lt_succ_self _) t rfl ⟨ht, hpieces⟩)
        · have htail : [] ∉ pieces (· == '_') t := hpieces
          cases t with
          | nil => simp [pieces] at htail
          | cons d t =>
            obtain ⟨hd, ht⟩ := List.forall_mem_cons.1 ht
            rcases isNameChar_iff.1 hd with hd | rfl
            · refine .part hd (ih t.length (by rw [← hn]; simp) t rfl
                ⟨ht, fun hmem => htail (List.mem_of_mem_tail ?_)⟩)
              rwa [tail_pieces_cons (ne_underscore_of_isLetter hd)]
            · simp [pieces] at htail

def IsName (t : List Char) : Prop := ∃ c rest, t = c :: rest ∧ IsCapital c ∧ GoesOn rest

theorem isName_iff : IsName t ↔ isName t = true ∧ ∀ c ∈ t, isNameChar c = true := by
  cases t with
  | nil => simp [IsName, isName]
  | cons c t =>
    have hhead : IsName (c :: t) ↔ IsCapital c ∧ GoesOn t := by simp [IsName]
    rw [hhead, goesOn_iff]
    by_cases hc : IsCapital c
    · have hletter : IsLetter c := .inl hc
      have hne := ne_underscore_of_isLetter hletter
      obtain ⟨p, ps, hp⟩ := List.exists_cons_of_ne_nil (pieces_ne_nil (· == '_') t)
      have hall : ps.all (!·.isEmpty) = true ↔ [] ∉ ps := by
        rw [List.all_eq_true]
        exact ⟨fun h hmem => absurd (h _ hmem) (by decide), fun h p hmem => by
          cases p with
          | nil => exact absurd hmem h
          | cons => rfl⟩
      simp only [isName, pieces, hp, hne, beq_iff_eq, if_false, List.modifyHead_cons,
        List.all_cons, List.tail_cons, List.head?_cons, Option.any_some, isUpper_iff.2 hc,
        List.forall_mem_cons, isNameChar_iff.2 (.inl hletter), hc, List.isEmpty_cons, hall,
        Bool.true_and, Bool.not_false, true_and]
      exact and_comm
    · have hupper : c.isUpper = false := by rwa [← Bool.not_eq_true, isUpper_iff]
      simp [isName, hc, hupper]

theorem isAliasChar_iff : isAliasChar c = true ↔ IsLetter c ∨ '0' ≤ c ∧ c ≤ '9' ∨ c = '_' := by
  rw [isAliasChar, Char.isAlphanum, Bool.or_eq_true, Bool.or_eq_true, isAlpha_iff, beq_iff_eq,
    or_assoc]
  simp [Char.isDigit, Char.le_def]

structure IsSound (s : Slip) : Prop where
  indent : ∀ c ∈ s.indent, isInlineBlank c = true
  name : IsName s.name
  aliasName : ∀ c ∈ s.aliasName, IsLetter c ∨ '0' ≤ c ∧ c ≤ '9' ∨ c = '_'
  aliasName_ne_nil : s.aliasName ≠ []

theorem IsSound.nameChars (h : s.IsSound) : ∀ c ∈ s.name, isNameChar c = true :=
  (isName_iff.1 h.name).2

theorem IsSound.aliasChars (h : s.IsSound) : ∀ c ∈ s.aliasName, isAliasChar c = true :=
  fun c hc => isAliasChar_iff.2 (h.aliasName c hc)

/-- What a slip looks like up to and with its comma; `gap` stands after the alias. -/
def written (s : Slip) (gap : List Char) : List Char :=
  s.indent ++ s.name ++ '/' :: s.aliasName ++ gap ++ [',']

def IsWrittenIn (s : Slip) (line : List Char) : Prop :=
  s.IsSound ∧ ∃ gap, (∀ c ∈ gap, isInlineBlank c = true) ∧ line = s.written gap ++ s.rest

theorem IsSound.exists_name_eq_cons (h : s.IsSound) :
    ∃ c name, s.name = c :: name ∧ c.isUpper = true := by
  obtain ⟨c, name, hname, hc, -⟩ := h.name
  exact ⟨c, name, hname, isUpper_iff.2 hc⟩

private theorem not_isInlineBlank_of_isUpper (h : c.isUpper = true) :
    isInlineBlank c = false := by
  cases hb : isInlineBlank c with
  | false => rfl
  | true =>
    rw [isInlineBlank, Bool.or_eq_true, beq_iff_eq, beq_iff_eq] at hb
    rcases hb with rfl | rfl <;> contradiction

theorem read?_written (h : s.IsSound) {gap : List Char}
    (hgap : ∀ c ∈ gap, isInlineBlank c = true) : read? (s.written gap ++ s.rest) = some s := by
  obtain ⟨c, name, hn, hu⟩ := h.exists_name_eq_cons
  have hindent : ∀ u, (s.indent ++ (s.name ++ u)).dropWhile isInlineBlank = s.name ++ u ∧
      (s.indent ++ (s.name ++ u)).takeWhile isInlineBlank = s.indent := by
    intro u
    rw [List.dropWhile_append_of_pos h.indent, List.takeWhile_append_of_pos h.indent, hn]
    simp [not_isInlineBlank_of_isUpper hu]
  have hname : ∀ u, (s.name ++ '/' :: u).dropWhile isNameChar = '/' :: u ∧
      (s.name ++ '/' :: u).takeWhile isNameChar = s.name := by
    intro u
    rw [List.dropWhile_append_of_pos h.nameChars, List.takeWhile_append_of_pos h.nameChars]
    simp [isNameChar, show '/'.isAlpha = false by decide]
  have halias : (s.aliasName ++ (gap ++ ',' :: s.rest)).dropWhile isAliasChar =
      gap ++ ',' :: s.rest ∧
      (s.aliasName ++ (gap ++ ',' :: s.rest)).takeWhile isAliasChar = s.aliasName := by
    rw [List.dropWhile_append_of_pos h.aliasChars, List.takeWhile_append_of_pos h.aliasChars]
    cases gap with
    | nil => simp [isAliasChar, show ','.isAlphanum = false by decide]
    | cons d gap =>
      have hd : isAliasChar d = false := by
        have := hgap d (by simp)
        rw [isInlineBlank, Bool.or_eq_true, beq_iff_eq, beq_iff_eq] at this
        rcases this with rfl | rfl <;> decide
      simp [hd]
  have hcomma : (gap ++ ',' :: s.rest).dropWhile isInlineBlank = ',' :: s.rest := by
    rw [List.dropWhile_append_of_pos hgap]
    rfl
  have hline : s.written gap ++ s.rest =
      s.indent ++ (s.name ++ '/' :: (s.aliasName ++ (gap ++ ',' :: s.rest))) := by
    simp [written]
  rw [hline, read?]
  simp [hindent, hname, halias, hcomma, (isName_iff.1 h.name).1, h.aliasName_ne_nil]

theorem exists_written_of_read? (h : read? line = some s) : s.IsWrittenIn line := by
  unfold read? at h
  dsimp only at h
  split at h
  · rename_i text hname
    split at h
    · rename_i rest halias
      split at h
      · rename_i hs
        rw [Bool.and_eq_true, Bool.not_eq_true', List.isEmpty_eq_false_iff] at hs
        obtain rfl := Option.some.inj h
        refine ⟨⟨fun c => List.mem_takeWhile_imp,
            isName_iff.2 ⟨hs.1, fun c => List.mem_takeWhile_imp⟩,
            fun c hc => isAliasChar_iff.1 (List.mem_takeWhile_imp hc), hs.2⟩,
          (text.dropWhile isAliasChar).takeWhile isInlineBlank,
          fun c => List.mem_takeWhile_imp, ?_⟩
        calc line = line.takeWhile isInlineBlank ++ line.dropWhile isInlineBlank :=
              List.takeWhile_append_dropWhile.symm
          _ = line.takeWhile isInlineBlank ++
                ((line.dropWhile isInlineBlank).takeWhile isNameChar ++ '/' :: text) := by
              rw [← hname]
              simp only [List.takeWhile_append_dropWhile]
          _ = line.takeWhile isInlineBlank ++
                ((line.dropWhile isInlineBlank).takeWhile isNameChar ++
                  '/' :: (text.takeWhile isAliasChar ++
                    ((text.dropWhile isAliasChar).takeWhile isInlineBlank ++ ',' :: rest))) := by
              rw [← halias, List.takeWhile_append_dropWhile, List.takeWhile_append_dropWhile]
          _ = _ := by simp [written]
      · contradiction
    · contradiction
  · contradiction

theorem read?_eq_some_iff : read? line = some s ↔ s.IsWrittenIn line := by
  refine ⟨exists_written_of_read?, ?_⟩
  rintro ⟨hs, gap, hgap, rfl⟩
  exact read?_written hs hgap

theorem read?_of_same_start {gap : List Char} (h : s.IsSound)
    (hgap : ∀ c ∈ gap, isInlineBlank c = true) (rest : List Char) :
    read? (s.written gap ++ rest) = some { s with rest } :=
  read?_written (s := { s with rest }) ⟨h.indent, h.name, h.aliasName, h.aliasName_ne_nil⟩ hgap

theorem read?_append (h : read? line = some s) (u : List Char) :
    read? (line ++ u) = some { s with rest := s.rest ++ u } := by
  obtain ⟨hs, gap, hgap, rfl⟩ := exists_written_of_read? h
  rw [List.append_assoc]
  exact read?_of_same_start hs hgap _

theorem read?_trimEnd (line : List Char) :
    read? (trimEnd line) = (read? line).map fun s => { s with rest := trimEnd s.rest } := by
  cases h : read? line with
  | some s =>
    obtain ⟨hs, gap, hgap, rfl⟩ := exists_written_of_read? h
    have : trimEnd (s.written gap ++ s.rest) = s.written gap ++ trimEnd s.rest := by
      simp only [written, List.append_assoc, List.singleton_append]
      simp only [← List.append_assoc]
      exact trimEnd_append_cons _ (by decide)
    rw [this]
    exact read?_of_same_start hs hgap _
  | none =>
    cases h' : read? (trimEnd line) with
    | none => rfl
    | some s =>
      obtain ⟨w, -, hw⟩ := exists_eq_trimEnd_append line
      rw [hw, read?_append h'] at h
      contradiction

theorem newline_not_mem_written (h : s.IsSound) {gap : List Char}
    (hgap : ∀ c ∈ gap, isInlineBlank c = true) : '\n' ∉ s.written gap := by
  have hn : '\n' ∉ s.name := fun hm => absurd (h.nameChars _ hm) (by decide)
  have ha : '\n' ∉ s.aliasName := fun hm => absurd (h.aliasChars _ hm) (by decide)
  have hi : '\n' ∉ s.indent := fun hm => absurd (h.indent _ hm) (by decide)
  have hg : '\n' ∉ gap := fun hm => absurd (hgap _ hm) (by decide)
  simp [written, hn, ha, hi, hg]

/-- A slip never reaches into the next line. -/
theorem read?_append_newline (line t : List Char) :
    read? (line ++ '\n' :: t) =
      (read? line).map fun s => { s with rest := s.rest ++ '\n' :: t } := by
  cases h : read? line with
  | some s => exact read?_append h _
  | none =>
    cases h' : read? (line ++ '\n' :: t) with
    | none => rfl
    | some s =>
      obtain ⟨hs, gap, hgap, hl⟩ := exists_written_of_read? h'
      rcases List.append_eq_append_iff.1 hl with ⟨u, hw, hu⟩ | ⟨u, hw, hu⟩
      · cases u with
        | nil =>
          rw [List.append_nil] at hw
          have := read?_of_same_start hs hgap []
          rw [List.append_nil, hw, h] at this
          contradiction
        | cons c u =>
          obtain rfl : '\n' = c := (List.cons.inj hu).1
          exact absurd (hw ▸ by simp) (newline_not_mem_written hs hgap)
      · rw [hw, read?_of_same_start hs hgap] at h
        contradiction

theorem read?_repaired (h : s.IsSound) : read? s.repaired = none := by
  obtain ⟨c, name, hn, hu⟩ := h.exists_name_eq_cons
  have hline : s.repaired = s.indent ++ (s.name ++ '(' :: (s.aliasName ++ ',' :: s.rest)) := by
    simp [repaired, head]
  have hname : (s.name ++ '(' :: (s.aliasName ++ ',' :: s.rest)).dropWhile isNameChar =
      '(' :: (s.aliasName ++ ',' :: s.rest) := by
    rw [List.dropWhile_append_of_pos h.nameChars]
    simp [isNameChar, show '('.isAlpha = false by decide]
  have hindent : (s.indent ++ (s.name ++ '(' :: (s.aliasName ++ ',' :: s.rest))).dropWhile
      isInlineBlank = s.name ++ '(' :: (s.aliasName ++ ',' :: s.rest) := by
    rw [List.dropWhile_append_of_pos h.indent, hn]
    simp [not_isInlineBlank_of_isUpper hu]
  rw [hline, read?]
  simp [hindent, hname]

end Slip

theorem repair_of_read? (h : Slip.read? line = some s) : repair line = s.head ++ s.rest := by
  simp [repair, h, Slip.repaired]

theorem repair_of_read?_eq_none (h : Slip.read? line = none) : repair line = line := by
  simp [repair, h]

@[simp] theorem repair_repair (line : List Char) : repair (repair line) = repair line := by
  cases h : Slip.read? line with
  | none => rw [repair_of_read?_eq_none h, repair_of_read?_eq_none h]
  | some s =>
    have : repair line = s.repaired := repair_of_read? h
    rw [this, repair_of_read?_eq_none (Slip.read?_repaired (Slip.exists_written_of_read? h).1)]

theorem repair_trimEnd (line : List Char) : repair (trimEnd line) = trimEnd (repair line) := by
  unfold repair
  rw [Slip.read?_trimEnd]
  cases Slip.read? line with
  | none => rfl
  | some s =>
    have : s.repaired = s.indent ++ s.name ++ '(' :: s.aliasName ++ ',' :: s.rest := by
      simp [Slip.repaired, Slip.head]
    simp only [Option.map_some, Option.getD_some, this,
      trimEnd_append_cons _ (c := ',') (by decide)]
    simp [Slip.repaired, Slip.head]

theorem newline_not_mem_repair (h : '\n' ∉ line) : '\n' ∉ repair line := by
  cases hs : Slip.read? line with
  | none => rwa [repair_of_read?_eq_none hs]
  | some s =>
    obtain ⟨-, gap, -, rfl⟩ := Slip.exists_written_of_read? hs
    rw [repair_of_read? hs]
    simp only [Slip.written, Slip.head, List.mem_append, List.mem_cons, not_or] at h ⊢
    simp_all

/-! A whole text. -/

theorem repairFrom_false_append (h : '\n' ∉ line) (t : List Char) :
    repairFrom false 0 (line ++ t) = line ++ repairFrom false 0 t := by
  induction line with
  | nil => rfl
  | cons c line ih =>
    have hc : (c == '\n') = false := by simpa using (List.ne_of_not_mem_cons h).symm
    rw [List.cons_append, repairFrom]
    simp only [Bool.false_eq_true, ↓reduceIte, hc]
    rw [ih (List.not_mem_of_not_mem_cons h), List.cons_append]

theorem repairFrom_skip (h : '\n' ∉ line) (t : List Char) :
    repairFrom false line.length (line ++ t) = repairFrom false 0 t := by
  induction line with
  | nil => rfl
  | cons c line ih =>
    have hc : (c == '\n') = false := by simpa using (List.ne_of_not_mem_cons h).symm
    rw [List.cons_append, List.length_cons, repairFrom, hc]
    exact ih (List.not_mem_of_not_mem_cons h)

/-- At the start of a line the slip, if there is one, is repaired and passed over. -/
theorem repairFrom_true_append (h : '\n' ∉ line) (ht : Slip.read? (line ++ t) =
    (Slip.read? line).map fun s => { s with rest := s.rest ++ t }) (hne : line ≠ []) :
    repairFrom true 0 (line ++ t) = repair line ++ repairFrom false 0 t := by
  obtain ⟨c, line, rfl⟩ := List.exists_cons_of_ne_nil hne
  have hc : (c == '\n') = false := by simpa using (List.ne_of_not_mem_cons h).symm
  have hl := List.not_mem_of_not_mem_cons h
  rw [List.cons_append] at ht ⊢
  rw [repairFrom]
  simp only [↓reduceIte, ht, hc]
  cases hs : Slip.read? (c :: line) with
  | none =>
    simp only [Option.map_none]
    rw [repairFrom_false_append hl, repair_of_read?_eq_none hs, List.cons_append]
  | some s =>
    obtain ⟨hsound, gap, -, hw⟩ := Slip.exists_written_of_read? hs
    obtain ⟨u, hu⟩ : ∃ u, line = u ++ s.rest := by
      rcases List.cons_eq_append_iff.1 hw with ⟨hnil, -⟩ | ⟨u, -, hu⟩
      · simp [Slip.written] at hnil
      · exact ⟨u, hu⟩
    have hlen : (line ++ t).length - (s.rest ++ t).length = u.length := by simp [hu]
    simp only [Option.map_some]
    rw [hlen, repair_of_read? hs, hu, List.append_assoc, repairFrom_skip, repairFrom_false_append]
    · rw [List.append_assoc]
      rfl
    · exact fun hm => hl (hu ▸ List.mem_append_right _ hm)
    · exact fun hm => hl (hu ▸ List.mem_append_left _ hm)

theorem repairText_of_not_mem (h : '\n' ∉ line) : repairText line = repair line := by
  cases line with
  | nil => rfl
  | cons c line =>
    have := repairFrom_true_append (t := []) h (by simp) (by simp)
    rw [List.append_nil] at this
    rw [repairText, this]
    exact List.append_nil _

theorem repairText_append_cons (h : '\n' ∉ line) :
    repairText (line ++ '\n' :: t) = repair line ++ '\n' :: repairText t := by
  cases line with
  | nil =>
    have hs : Slip.read? ('\n' :: t) = none := Slip.read?_append_newline [] t
    simp only [List.nil_append, repairText, repairFrom, ↓reduceIte, hs]
    rfl
  | cons c line =>
    rw [repairText, repairFrom_true_append h (Slip.read?_append_newline _ t) (by simp)]
    rfl

theorem lines_repairText (t : List Char) : lines (repairText t) = (lines t).map repair := by
  induction t using induction_on_lines with
  | last l hl =>
    rw [repairText_of_not_mem hl, lines_of_not_mem (newline_not_mem_repair hl), lines_of_not_mem hl]
    rfl
  | cons l t hl ih =>
    rw [repairText_append_cons hl, lines_append_cons (newline_not_mem_repair hl),
      lines_append_cons hl, ih]
    rfl

end ArchSketch.Diagram
