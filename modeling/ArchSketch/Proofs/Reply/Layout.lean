import ArchSketch.Proofs.Reply.Explanation
import ArchSketch.Proofs.Reply.Merging
import ArchSketch.Proofs.Text.Lines

/-! The layout in which a model is asked to answer: the explanation under its label, the diagram
under its own in a tagged fence. An answer in this layout is taken apart into just these two. -/
namespace ArchSketch.Reply

open Text Diagram

variable {a l r t w : List Char} {words : List (List Char)} {atLineStart : Bool}

def explanationWords : List (List Char) := ["explanation".toList]

def diagramWords : List (List Char) := ["plantuml".toList, "diagram".toList]

def HasDiagramLabel (line : List Char) : Prop := ∃ l, IsLabel diagramWords l ∧ l <+: line

theorem label?_explanationWords (hl : IsLabel explanationWords l) (r : List Char) :
    label? explanationWords true (l ++ r) = some r :=
  label?_of_isLabel (by simp [explanationWords]) (by simp [explanationWords]; decide) hl r

theorem diagramLabel_of_isLabel (hl : IsLabel diagramWords l) (r : List Char) :
    diagramLabel true (l ++ r) = some r :=
  label?_of_isLabel (by decide) (by decide) hl r

theorem hasDiagramLabel_iff : HasDiagramLabel t ↔ (diagramLabel true t).isSome = true := by
  rw [Option.isSome_iff_exists]
  constructor
  · rintro ⟨l, hl, r, rfl⟩
    exact ⟨r, diagramLabel_of_isLabel hl r⟩
  · rintro ⟨r, hr⟩
    obtain ⟨-, l, hl, rfl⟩ := exists_of_label? hr
    exact ⟨l, hl, List.prefix_append l r⟩

instance : DecidablePred HasDiagramLabel := fun _ => decidable_of_iff _ hasDiagramLabel_iff.symm

/-- A text that can be told from the diagram after it: none of its lines is labelled as the diagram
or starts with a fence, and nothing in it opens a diagram, up to the end of its last line. -/
structure IsProse (e : List Char) : Prop where
  unlabelled : ∀ line ∈ lines e, ¬ HasDiagramLabel line
  unfenced : ∀ line ∈ lines e, ¬ fence <+: line.dropWhile isInlineBlank
  unopened : ¬ HasOpening (e ++ ['\n'])

instance : DecidablePred IsProse := fun e => decidable_of_iff
  ((∀ line ∈ lines e, ¬ HasDiagramLabel line) ∧
    (∀ line ∈ lines e, ¬ fence <+: line.dropWhile isInlineBlank) ∧ ¬ HasOpening (e ++ ['\n']))
  ⟨fun h => ⟨h.1, h.2.1, h.2.2⟩, fun h => ⟨h.unlabelled, h.unfenced, h.unopened⟩⟩

/-- A label with what may stand around its word, and the stars and underscores that close its
emphasis. -/
structure LabelLine (words : List (List Char)) where
  decoration : List Char
  word : List Char
  gap : List Char
  emphasis : List Char
  decorated : decoration.all isDecoration = true := by decide +kernel
  word_mem : word.map fold ∈ words := by decide +kernel
  blank_gap : gap.all isInlineBlank = true := by decide +kernel
  emphasized : emphasis.all isEmphasis = true := by decide +kernel

def LabelLine.label (l : LabelLine words) : List Char := l.decoration ++ l.word ++ l.gap ++ [':']

def LabelLine.text (l : LabelLine words) : List Char := l.label ++ l.emphasis

theorem LabelLine.isLabel (l : LabelLine words) : IsLabel words l.label :=
  ⟨l.decoration, l.word, l.gap, rfl, List.all_eq_true.1 l.decorated, l.word_mem,
    List.all_eq_true.1 l.blank_gap⟩

/-- An answer in the layout, up to the end of the line that closes its fence. -/
def answer (first : LabelLine explanationWords) (e : List Char) (second : LabelLine diagramWords)
    (tag d : List Char) : List Char :=
  first.text ++ "\n".toList ++ e ++ "\n\n".toList ++ second.text ++ "\n".toList ++ fence ++ tag ++
    "\n".toList ++ d ++ "\n".toList ++ fence

/-! The explanation ends where the label of the diagram stands. -/

theorem exists_mem_lines (ha : opensLine true a = true) (hw : '\n' ∉ w) (h : w <+: r) :
    ∃ line ∈ lines (a ++ r), w <+: line := by
  have hfirst : ∃ line ∈ lines r, w <+: line := by
    induction r using induction_on_lines with
    | last l hl => exact ⟨l, by simp [lines_of_not_mem hl], h⟩
    | cons l t hl ih =>
      exact ⟨l, by simp [lines_append_cons hl], prefix_of_prefix_append_cons hw h⟩
  obtain ⟨line, hline, hprefix⟩ := hfirst
  refine ⟨line, ?_, hprefix⟩
  rcases List.eq_nil_or_concat' a with rfl | ⟨a, c, rfl⟩
  · exact hline
  · rw [opensLine_concat, beq_iff_eq] at ha
    subst ha
    rw [List.append_assoc, List.singleton_append, lines_append]
    exact List.mem_append_right _ hline

theorem sectionEnd_newline (atLineStart : Bool) (t : List Char) :
    sectionEnd atLineStart ('\n' :: t) = none := by
  cases atLineStart <;> rfl

theorem sectionEnd_eq_none (hlabel : atLineStart = true → ¬ HasDiagramLabel t)
    (hfence : atLineStart = true → ¬ fence <+: t.dropWhile isInlineBlank)
    (hopening : ¬ ∃ w, IsOpening w ∧ w <+: t) : sectionEnd atLineStart t = none := by
  have hnone : diagramLabel atLineStart t = none := by
    rw [Option.eq_none_iff_forall_not_mem]
    intro r hr
    obtain ⟨hstart, l, hl, rfl⟩ := exists_of_label? hr
    exact hlabel hstart ⟨l, hl, List.prefix_append l r⟩
  rw [sectionEnd, hnone]
  exact diagramStart_eq_none_iff.2 ⟨hfence, hopening⟩

theorem fence_prefix_dropWhile_iff : fence <+: t.dropWhile isInlineBlank ↔
    ∃ gap, (∀ c ∈ gap, isInlineBlank c = true) ∧ gap ++ fence <+: t := by
  constructor
  · intro h
    refine ⟨t.takeWhile isInlineBlank, fun c hc => List.mem_takeWhile_imp hc, ?_⟩
    conv => rhs; rw [← List.takeWhile_append_dropWhile (p := isInlineBlank) (l := t)]
    exact (List.prefix_append_right_inj _).2 h
  · rintro ⟨gap, hgap, r, rfl⟩
    rw [List.append_assoc, List.dropWhile_append_of_pos hgap]
    exact ⟨r, rfl⟩

theorem IsProse.passes (h : IsProse t) (s : List Char) :
    sectionEnd.Passes true t ('\n' :: s) := by
  refine passes_of_forall fun a r hr hne => sectionEnd_eq_none ?_ ?_ ?_
  · rintro ha ⟨l, hl, hprefix⟩
    have hline : '\n' ∉ l := hl.not_mem rfl (by decide) (by decide)
    obtain ⟨line, hmem, hstart⟩ :=
      exists_mem_lines ha hline (prefix_of_prefix_append_cons hline hprefix)
    exact h.unlabelled line (hr ▸ hmem) ⟨l, hl, hstart⟩
  · intro ha hfence
    obtain ⟨gap, hgap, hprefix⟩ := fence_prefix_dropWhile_iff.1 hfence
    have hline : '\n' ∉ gap ++ fence := by
      rw [List.mem_append, not_or]
      exact ⟨fun h => absurd (hgap _ h) (by decide), by decide⟩
    obtain ⟨line, hmem, hstart⟩ :=
      exists_mem_lines ha hline (prefix_of_prefix_append_cons hline hprefix)
    exact h.unfenced line (hr ▸ hmem) (fence_prefix_dropWhile_iff.2 ⟨gap, hgap, hstart⟩)
  · rintro ⟨w, hw, hprefix⟩
    have hwr := prefix_append_cons hw.newline_not_mem_dropLast hprefix
    exact h.unopened ⟨w, hw, hwr.isInfix.trans ⟨a, [], by simp [hr]⟩⟩

theorem textBefore_sectionEnd (ht : IsProse t) (second : LabelLine diagramWords) (r : List Char) :
    textBefore sectionEnd ('\n' :: (t ++ ['\n', '\n']) ++ (second.text ++ r)) =
      '\n' :: (t ++ ['\n', '\n']) := by
  refine textBefore_append ⟨sectionEnd_newline _ _, passes_append.2 ⟨?_, ?_⟩⟩ ?_
  · exact ht.passes _
  · exact ⟨sectionEnd_newline _ _, sectionEnd_newline _ _, trivial⟩
  · have hsplit : '\n' :: (t ++ ['\n', '\n']) = '\n' :: (t ++ ['\n']) ++ ['\n'] := by simp
    rw [hsplit, opensLine_concat, beq_self_eq_true, LabelLine.text, List.append_assoc, sectionEnd,
      diagramLabel_of_isLabel second.isLabel]
    simp

theorem explanationLabel_append (first : LabelLine explanationWords)
    (hr : r.head?.all (!isEmphasis ·) = true) :
    explanationLabel true (first.text ++ r) = some r := by
  have hread := label?_explanationWords first.isLabel (first.emphasis ++ r)
  have hends : r.dropWhile isEmphasis = r := by
    cases r with
    | nil => rfl
    | cons c r => exact List.dropWhile_cons_of_neg (by simpa using hr)
  rw [LabelLine.text, List.append_assoc, explanationLabel, ← explanationWords, hread,
    Option.map_some, List.dropWhile_append_of_pos (List.all_eq_true.1 first.emphasized), hends]

theorem explanation_labelled (ht : IsProse t) (hblank : ∃ c ∈ t, isBlank c = false)
    (first : LabelLine explanationWords) (second : LabelLine diagramWords) (r : List Char) :
    explanation (first.text ++ ('\n' :: (t ++ ['\n', '\n']) ++ (second.text ++ r))) = trim t := by
  have hblanks : ∀ c ∈ ['\n', '\n'], isBlank c = true := by simp; rfl
  have hlabel : explanationLabel true
      (first.text ++ ('\n' :: (t ++ ['\n', '\n']) ++ (second.text ++ r))) =
        some ('\n' :: (t ++ ['\n', '\n']) ++ (second.text ++ r)) :=
      explanationLabel_append first rfl
  have hlabelled :
      labelled (first.text ++ ('\n' :: (t ++ ['\n', '\n']) ++ (second.text ++ r))) = trim t := by
    rw [labelled, find?_of_fits hlabel]
    dsimp only
    rw [if_neg (by simp), textBefore_sectionEnd ht]
    exact trim_append_blanks (v := ['\n']) (fun c hc => hblanks c (by simp_all)) hblanks t
  have hne : trim t ≠ [] := by
    rw [Ne, trim_eq_nil_iff]
    obtain ⟨c, hc, hblank⟩ := hblank
    exact fun h => by simp [h c hc] at hblank
  rw [explanation, hlabelled, if_neg (by simpa using hne)]

/-! The diagram. -/

theorem LabelLine.not_mem {c : Char} (l : LabelLine words) (hdecoration : isDecoration c = false)
    (hwords : ∀ word ∈ words, fold c ∉ word) (hcolon : c ≠ ':') : c ∉ l.text :=
  l.isLabel.not_mem_append (List.all_eq_true.1 l.emphasized) hdecoration hwords hcolon

theorem not_hasOpener_lead (ht : IsProse t) (first : LabelLine explanationWords)
    (second : LabelLine diagramWords) :
    ¬ HasOpener (first.text ++ '\n' :: (t ++ '\n' :: '\n' :: (second.text ++ ['\n']))) := by
  rintro ⟨w, hw, hwithin⟩
  have hfirst : '\x60' ∉ first.text ++ ['\n'] := by
    have := first.not_mem (c := '\x60') rfl (by decide) (by decide)
    simpa using this
  have hsecond : '\x60' ∉ '\n' :: (second.text ++ ['\n']) := by
    have := second.not_mem (c := '\x60') rfl (by decide) (by decide)
    simpa using this
  have hcut := IsOpening.newline_not_mem_dropLast (.inl hw)
  rcases infix_append_cons hcut hwithin with hwithin | hwithin
  · exact hfirst (hwithin.subset hw.backtick_mem)
  rcases infix_append_cons hcut hwithin with hwithin | hwithin
  · exact ht.unopened ⟨w, .inl hw, hwithin⟩
  · exact hsecond (hwithin.subset hw.backtick_mem)

end ArchSketch.Reply

namespace ArchSketch

open Text Reply

/-- An answer in the layout is taken apart into its explanation and its diagram. -/
theorem extract_answer {e d tag ending : List Char} (he : IsProse e)
    (hexplained : ∃ c ∈ e, isBlank c = false) (hdrawn : ∃ c ∈ d, isBlank c = false)
    (hplain : ¬ fence <:+: d) (htag : tag.map fold = "plantuml".toList)
    (hending : ending ∈ [[], ['\n']]) (first : LabelLine explanationWords)
    (second : LabelLine diagramWords) :
    extract (String.ofList (answer first e second tag d ++ ending)) =
      ⟨String.ofList (trim e), String.ofList (trim d ++ ['\n'])⟩ := by
  have hsource : source (answer first e second tag d ++ ending) = trim d ++ ['\n'] := by
    have hrest : '\x60' ∉ ending := by
      simp only [List.mem_cons, List.not_mem_nil, or_false] at hending
      rcases hending with rfl | rfl <;> decide
    have htext : answer first e second tag d ++ ending =
        first.text ++ '\n' :: (e ++ '\n' :: '\n' :: (second.text ++ ['\n'])) ++
          (fence ++ tag ++ '\n' :: (d ++ '\n' :: fence)) ++ ending := by simp [answer]
    rw [htext, source_append_fence (not_hasOpener_lead he first second) (by rw [htag]; decide)
      hplain hdrawn hrest]
  have hexplanation : explanation (answer first e second tag d ++ ending) = trim e := by
    have htext : answer first e second tag d ++ ending = first.text ++
        ('\n' :: (e ++ ['\n', '\n']) ++ (second.text ++ '\n' :: (fence ++ tag ++
          '\n' :: (d ++ '\n' :: fence) ++ ending))) := by simp [answer]
    rw [htext, explanation_labelled he hexplained]
  rw [extract_of_source_ne_nil (by simp [hsource]), hsource, hexplanation]

def shopExplanation : LabelLine explanationWords :=
  { decoration := " **".toList, word := "Explanation".toList, gap := "\t".toList
    emphasis := "**".toList }

def shopDiagram : LabelLine diagramWords :=
  { decoration := "## ".toList
    word := "PlantUML".toList
    gap := "  ".toList
    emphasis := "__".toList }

def shopProse : List Char :=
  " # EXPLANATION: a *shop*\r\nDiagrams: `@start` ```c4x\r\n\nIts diagram: __s__".toList

def shopSource : List Char := "Person(a, \"A\")\r\n``EXPLANATION:``".toList

theorem extract_shopAnswer :
    IsProse shopProse ∧ (∃ c ∈ shopProse, isBlank c = false) ∧
      (∃ c ∈ shopSource, isBlank c = false) ∧ ¬ fence <:+: shopSource ∧
      "plantUML".toList.map fold = "plantuml".toList ∧ ['\n'] ∈ [[], ['\n']] ∧
      extract (String.ofList
          (answer shopExplanation shopProse shopDiagram "plantUML".toList shopSource ++ ['\n'])) =
        ⟨"# EXPLANATION: a *shop*\r\nDiagrams: `@start` ```c4x\r\n\nIts diagram: __s__",
          "Person(a, \"A\")\r\n``EXPLANATION:``\n"⟩ := by
  have he : IsProse shopProse := by decide +kernel
  have hexplained : ∃ c ∈ shopProse, isBlank c = false := ⟨'#', by decide +kernel, rfl⟩
  have hdrawn : ∃ c ∈ shopSource, isBlank c = false := ⟨'P', by decide +kernel, rfl⟩
  have hplain : ¬ fence <:+: shopSource := by decide +kernel
  have htag : "plantUML".toList.map fold = "plantuml".toList := by decide +kernel
  have hending : ['\n'] ∈ [[], ['\n']] := by simp
  refine ⟨he, hexplained, hdrawn, hplain, htag, hending, ?_⟩
  rw [extract_answer he hexplained hdrawn hplain htag hending shopExplanation shopDiagram]
  decide +kernel

end ArchSketch
