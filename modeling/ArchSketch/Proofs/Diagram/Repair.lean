import ArchSketch.Proofs.Diagram.NormalForm

/-! Slips are repaired before anything else is read off a line. So it makes no difference which of
them are written properly beforehand, and an element whose call begins with a slip counts for the
level of the diagram as if it had been called. -/
namespace ArchSketch.Diagram

open Text

variable {line line' name : List Char} {names : List (List Char)} {ls ls' : List (List Char)}
  {s : Slip} {l : Level}

/-- The line is left as it is, or the slip at its start is written as a call. -/
inductive IsMended (line : List Char) : List Char → Prop
  | same : IsMended line line
  | mended (s : Slip) (h : s.IsWrittenIn line) :
    IsMended line (s.indent ++ s.name ++ '(' :: s.aliasName ++ ',' :: s.rest)

theorem repair_of_isWrittenIn (h : s.IsWrittenIn line) :
    repair line = s.indent ++ s.name ++ '(' :: s.aliasName ++ ',' :: s.rest := by
  rw [repair_of_read? (Slip.read?_eq_some_iff.2 h)]
  simp [Slip.head]

theorem IsMended.eq_or (h : IsMended line line') : line' = line ∨ line' = repair line := by
  cases h with
  | same => exact .inl rfl
  | mended s h => exact .inr (repair_of_isWrittenIn h).symm

theorem IsMended.repair_eq (h : IsMended line line') : repair line' = repair line := by
  rcases h.eq_or with rfl | rfl
  · rfl
  · exact repair_repair line

theorem IsMended.newline_not_mem (h : IsMended line line') (hline : '\n' ∉ line) :
    '\n' ∉ line' := by
  rcases h.eq_or with rfl | rfl
  · exact hline
  · exact newline_not_mem_repair hline

/-! A text with some of its slips mended. -/

theorem Document.ofLines_map_repair (ls : List (List Char)) :
    ofLines (ls.map repair) = ofLines ls := by
  have htitle : titleOf? ∘ repair = titleOf? := funext titleOf?_repair
  have hcontent : isContent ∘ repair = isContent := funext isContent_repair
  simp [ofLines, List.findSome?_map, List.filter_map, htitle, hcontent, Function.comp_def,
    repair_trimEnd]

theorem map_repair_of_mended (h : List.Forall₂ IsMended ls ls') :
    ls'.map repair = ls.map repair := by
  induction h with
  | nil => rfl
  | cons hline _ ih => rw [List.map_cons, List.map_cons, hline.repair_eq, ih]

theorem newline_not_mem_mended (h : List.Forall₂ IsMended ls ls')
    (hls : ∀ line ∈ ls, '\n' ∉ line) : ∀ line ∈ ls', '\n' ∉ line := by
  induction h with
  | nil => simp
  | cons hline _ ih =>
    obtain ⟨hfirst, hls⟩ := List.forall_mem_cons.1 hls
    exact List.forall_mem_cons.2 ⟨hline.newline_not_mem hfirst, ih hls⟩

theorem lines_mended {source : List Char} (h : List.Forall₂ IsMended (lines source) ls) :
    lines (unlines ls) = ls := by
  refine lines_unlines (fun hnil => ?_)
    (newline_not_mem_mended h fun line => newline_not_mem_of_mem_lines)
  rw [hnil, List.forall₂_nil_right_iff] at h
  exact lines_ne_nil source h

theorem Document.ofSource_mended {source : List Char}
    (h : List.Forall₂ IsMended (lines source) ls) : ofSource (unlines ls) = ofSource source := by
  rw [ofSource_eq, ofSource_eq, lines_mended h, ← ofLines_map_repair, map_repair_of_mended h,
    ofLines_map_repair]

/-! The call of a repaired slip. -/

theorem isWord_of_isNameChar {c : Char} (h : Slip.isNameChar c = true) : isWord c = true := by
  refine isWord_of_isAsciiWord ?_
  simp only [Slip.isNameChar, isAsciiWord, Char.isAlphanum, Bool.or_eq_true] at h ⊢
  tauto

theorem Slip.IsSound.name_mem_calls (h : s.IsSound) : s.name ∈ calls s.repaired := by
  obtain ⟨c, name, hname, -⟩ := h.exists_name_eq_cons
  have hword : ∀ d ∈ s.name, isWord d = true := fun d hd => isWord_of_isNameChar (h.nameChars d hd)
  have hline : s.repaired = s.indent ++ (s.name ++ '(' :: (s.aliasName ++ ',' :: s.rest)) := by
    simp [repaired, head]
  rw [hline, calls_blanks_append fun d hd => isBlank_of_isInlineBlank (h.indent d hd)]
  exact mem_calls_of_word hword (by simp [hname]) _

theorem exists_levelOf?_of_mem (hname : name ∈ names) (h : isElementOf l name = true) :
    ∃ level, levelOf? names = some level ∧ l.depth ≤ level.depth := by
  have hany : names.any (isElementOf l) = true := List.any_eq_true.2 ⟨name, hname, h⟩
  cases hcomponent : names.any (isElementOf .component) with
  | true =>
    exact ⟨.component, by rw [levelOf?, List.find?_cons, hcomponent], by cases l <;> decide⟩
  | false =>
    have hl : l ≠ .component := fun hl => by simp [hl, hcomponent] at hany
    cases hcontainer : names.any (isElementOf .container) with
    | true =>
      refine ⟨.container, ?_, by cases l <;> simp_all [Level.depth]⟩
      rw [levelOf?, List.find?_cons, hcomponent, List.find?_cons, hcontainer]
    | false =>
      obtain rfl : l = .context := by cases l <;> simp_all
      refine ⟨.context, ?_, le_rfl⟩
      rw [levelOf?, List.find?_cons, hcomponent, List.find?_cons, hcontainer, List.find?_cons, hany]

theorem uptoHere_subset {level : Level} (h : l.depth ≤ level.depth) :
    l.uptoHere ⊆ level.uptoHere := by
  intro other hother
  rw [Level.uptoHere, List.mem_filter, decide_eq_true_iff] at hother ⊢
  exact ⟨hother.1, hother.2.trans h⟩

theorem mem_trimLines (hline : line ∈ ls) (h : isBlankLine line = false) : line ∈ trimLines ls := by
  obtain ⟨top, bottom, hls, hblank, -⟩ := exists_eq_trimLines ls
  have hnot : line ∉ top ++ bottom := fun hmem => by simp [hblank line hmem] at h
  rw [hls] at hline
  simp only [List.mem_append, not_or] at hline hnot
  tauto

theorem Document.name_mem_calls_text {source : List Char} (hline : line ∈ lines source)
    (h : s.IsWrittenIn line) : s.name ∈ calls (ofSource source).text := by
  have hread : Slip.read? (trimEnd line) = some { s with rest := trimEnd s.rest } := by
    rw [Slip.read?_trimEnd, Slip.read?_eq_some_iff.2 h]
    rfl
  have hcall : s.name ∈ calls (repair (trimEnd line)) := by
    rw [repair_of_read? hread]
    exact (Slip.exists_written_of_read? hread).1.name_mem_calls
  have hblank : isBlankLine (repair (trimEnd line)) = false := by
    rw [← Bool.not_eq_true, isBlankLine_iff]
    intro hblank
    rw [← List.append_nil (repair _), calls_blanks_append hblank] at hcall
    contradiction
  have hcontent : isContent line = true :=
    (isContent_of_read? (Slip.read?_eq_some_iff.2 h)).1
  have hbody : repair (trimEnd line) ∈ (ofSource source).body := by
    rw [ofSource_eq]
    exact mem_trimLines
      (List.mem_map.2 ⟨line, List.mem_filter.2 ⟨hline, hcontent⟩, rfl⟩) hblank
  exact mem_calls_unlines hbody hcall

theorem Document.includes_subset_outline {d : Document} (hname : name ∈ calls d.text)
    (h : isElementOf l name = true) : includes (some l) ⊆ d.outline := by
  obtain ⟨level, hlevel, hdepth⟩ := exists_levelOf?_of_mem hname h
  have hincludes : includes (some l) ⊆ includes (level? d.text) := by
    rw [level?_eq, hlevel]
    exact List.map_subset _ (uptoHere_subset hdepth)
  intro line hline
  simp [outline, hincludes hline]

end ArchSketch.Diagram

namespace ArchSketch

open Text Diagram

/-- Slips come to the same as the calls they were meant to be: any of them may be written as calls
beforehand, and the includes of their elements are in the diagram. -/
theorem normalize_slips (source : String) :
    (∀ ls, List.Forall₂ IsMended (lines source.toList) ls →
      normalize (String.ofList (unlines ls)) = normalize source) ∧
    ∀ line ∈ lines source.toList, ∀ (s : Slip) (l : Level), s.IsWrittenIn line →
      isElementOf l s.name = true → ∀ library ∈ cumulativeIncludes (some l),
        library.toList ∈ lines (normalize source).toList := by
  refine ⟨fun ls h => ?_, fun line hline s l h helement library hlibrary => ?_⟩
  · rw [normalize, normalize, String.toList_ofList, Document.ofSource_mended h]
  · have hcall := Document.name_mem_calls_text hline h
    rw [Document.lines_normalize]
    refine Document.includes_subset_outline hcall helement ?_
    rw [includes_eq]
    exact List.mem_map_of_mem hlibrary

def cartSlip : Slip :=
  { indent := "\t".toList, name := "Component_Ext".toList, aliasName := "cart".toList
    rest := " \"Cart\")\r".toList }

def cartSource : String := "\tComponent_Ext/cart , \"Cart\")\r\nPerson/a, \"A\")"

theorem normalize_cartSource :
    normalize "\tComponent_Ext(cart, \"Cart\")\r\nPerson/a, \"A\")" = normalize cartSource ∧
      "!include <C4/C4_Container>".toList ∈ lines (normalize cartSource).toList := by
  let slip := "\tComponent_Ext/cart , \"Cart\")\r".toList
  let call := "\tComponent_Ext(cart, \"Cart\")\r".toList
  let other := "Person/a, \"A\")".toList
  have hlines : lines cartSource.toList = [slip, other] := by decide +kernel
  have hslip : cartSlip.IsWrittenIn slip := Slip.read?_eq_some_iff.1 rfl
  obtain ⟨hsame, hlibrary⟩ := normalize_slips cartSource
  rw [hlines] at hsame hlibrary
  constructor
  · have htext : "\tComponent_Ext(cart, \"Cart\")\r\nPerson/a, \"A\")" =
        String.ofList (unlines [call, other]) := by decide +kernel
    rw [htext]
    exact hsame [call, other] (.cons (.mended cartSlip hslip) (.cons .same .nil))
  · exact hlibrary slip List.mem_cons_self cartSlip .component hslip (by decide)
      "!include <C4/C4_Container>" (by simp [cumulativeIncludes])

end ArchSketch
