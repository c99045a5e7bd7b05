import ArchSketch.Proofs.Reply.Layout

/-! The explanation of a reply that labels it. What stands under the label, up to the label of the
diagram or the diagram itself, is the explanation as long as there is something in it to read. A
section of blanks is taken for none: then all that leads up to the diagram is the explanation, and
with it the label. -/
namespace ArchSketch.Reply

open Text Diagram

variable {before rest lead text t u : List Char} {first : LabelLine explanationWords}
  {atLineStart : Bool}

/-- The first label of the explanation stands between the two texts, at the start of a line, and
nothing of the diagram begins before it. -/
structure IsLabelled (before : List Char) (first : LabelLine explanationWords)
    (rest : List Char) : Prop where
  opensLine : opensLine true before = true
  ends : rest.head?.all (!isEmphasis ·) = true
  unlabelled : explanationLabel.Passes true before (first.text ++ rest)
  undrawn : diagramStart.Passes true before (first.text ++ rest)

instance (before : List Char) (first : LabelLine explanationWords) (rest : List Char) :
    Decidable (IsLabelled before first rest) := decidable_of_iff
  (Text.opensLine true before = true ∧ rest.head?.all (!isEmphasis ·) = true ∧
    explanationLabel.Passes true before (first.text ++ rest) ∧
    diagramStart.Passes true before (first.text ++ rest))
  ⟨fun h => ⟨h.1, h.2.1, h.2.2.1, h.2.2.2⟩,
    fun h => ⟨h.opensLine, h.ends, h.unlabelled, h.undrawn⟩⟩

/-! The label. -/

theorem LabelLine.exists_eq_concat (first : LabelLine explanationWords) :
    ∃ v c, first.text = v ++ [c] ∧ isInlineBlank c = false ∧ c ≠ '\n' := by
  rcases List.eq_nil_or_concat' first.emphasis with hnil | ⟨v, c, hv⟩
  · exact ⟨first.decoration ++ first.word ++ first.gap, ':',
      by rw [LabelLine.text, hnil, List.append_nil, LabelLine.label], rfl, by decide⟩
  · have hc : isEmphasis c = true :=
      List.all_eq_true.1 first.emphasized c (by rw [hv]; exact List.mem_concat_self)
    simp only [isEmphasis, Bool.or_eq_true, beq_iff_eq] at hc
    refine ⟨first.label ++ v, c, by rw [LabelLine.text, hv, List.append_assoc], ?_⟩
    rcases hc with rfl | rfl <;> decide

theorem LabelLine.opensLine_text (first : LabelLine explanationWords) :
    opensLine atLineStart first.text = false := by
  obtain ⟨v, c, hv, -, hc⟩ := first.exists_eq_concat
  rw [hv, opensLine_concat]
  simpa using hc

theorem diagramStart_eq_none_of_not_mem (htick : '\x60' ∉ u) (hat : '@' ∉ u)
    (hu : ∃ c ∈ u, isInlineBlank c = false) (s : List Char) :
    diagramStart atLineStart (u ++ s) = none := by
  obtain ⟨c, hc, hcu⟩ := hu
  refine diagramStart_eq_none_iff.2 ⟨fun _ hfence => ?_, ?_⟩
  · obtain ⟨d, v, hd⟩ : ∃ d v, u.dropWhile isInlineBlank = d :: v := by
      refine List.exists_cons_of_ne_nil fun hnil => ?_
      rw [List.dropWhile_eq_nil_iff.1 hnil c hc] at hcu
      contradiction
    rw [List.dropWhile_append, hd] at hfence
    obtain ⟨hhead, -⟩ := List.cons_prefix_cons.1 hfence
    exact htick ((List.dropWhile_sublist isInlineBlank).subset (hd ▸ hhead ▸ List.mem_cons_self))
  · exact clear_of_not_mem htick hat s [] u rfl (List.ne_nil_of_mem hc)

theorem LabelLine.passes (first : LabelLine explanationWords) (s : List Char) :
    diagramStart.Passes atLineStart first.text s := by
  refine passes_of_forall fun a r hr hne => ?_
  have htick : '\x60' ∉ first.text := first.not_mem rfl (by decide) (by decide)
  have hat : '@' ∉ first.text := first.not_mem rfl (by decide) (by decide)
  rw [hr, List.mem_append, not_or] at htick hat
  refine diagramStart_eq_none_of_not_mem htick.2 hat.2 ?_ s
  obtain ⟨v, c, hv, hc, -⟩ := first.exists_eq_concat
  obtain ⟨r, d, rfl⟩ := (List.eq_nil_or_concat' r).resolve_left hne
  rw [hv, ← List.append_assoc] at hr
  obtain rfl : c = d := by simpa using (List.append_inj' hr rfl).2
  exact ⟨c, by simp, hc⟩

/-! The section under the label. -/

theorem sectionEnd_eq_none_of_true (h : sectionEnd true t = none) :
    sectionEnd false t = none := by
  have hopening := (diagramStart_eq_none_iff.1 (diagramStart_eq_none_of_sectionEnd h)).2
  exact sectionEnd_eq_none (by simp) (by simp) hopening

theorem find?_sectionEnd (h : sectionEnd true t = none) :
    find? sectionEnd true t = find? sectionEnd false t :=
  find?_congr (h.trans (sectionEnd_eq_none_of_true h).symm)

namespace IsLabelled

theorem labelled_eq (h : IsLabelled before first rest) :
    labelled (before ++ (first.text ++ rest)) = trim (textBefore sectionEnd rest) := by
  have hlabel : find? explanationLabel true (before ++ (first.text ++ rest)) =
      some (before, rest) :=
    find?_eq_some_iff.2
      ⟨_, rfl, by rw [h.opensLine, explanationLabel_append first h.ends], h.unlabelled⟩
  rw [labelled, hlabel]
  exact if_neg (Nat.not_lt.2 (length_le_textBefore h.undrawn))

theorem labelled_section (h : IsLabelled before first rest)
    (htext : find? sectionEnd false rest = some (text, ())) (htrue : sectionEnd true rest = none) :
    labelled (before ++ (first.text ++ rest)) = trim text := by
  rw [h.labelled_eq, textBefore, find?_sectionEnd htrue, htext]
  rfl

theorem find?_diagramStart (h : IsLabelled before first rest) :
    find? diagramStart true (before ++ (first.text ++ rest)) =
      (find? diagramStart false rest).map fun found =>
        (before ++ (first.text ++ found.1), found.2) := by
  rw [find?_append h.undrawn, find?_append (first.passes rest), first.opensLine_text,
    Option.map_map]
  rfl

theorem leading_eq (h : IsLabelled before first rest)
    (hlead : find? diagramStart false rest = some (lead, ())) :
    leading (before ++ (first.text ++ rest)) = trim (before ++ (first.text ++ lead)) := by
  rw [leading, textBefore, h.find?_diagramStart, hlead]
  rfl

theorem exists_lead (h : IsLabelled before first rest)
    (hsource : source (before ++ (first.text ++ rest)) ≠ []) :
    ∃ lead, find? diagramStart false rest = some (lead, ()) := by
  cases hfind : find? diagramStart false rest with
  | some found => exact ⟨found.1, rfl⟩
  | none =>
    have hnone := h.find?_diagramStart
    rw [hfind] at hnone
    exact absurd (clear_of_passes (find?_eq_none_iff.1 hnone).1).source_eq_nil hsource

theorem explanation_section (h : IsLabelled before first rest)
    (htext : find? sectionEnd false rest = some (text, ())) (hread : ∃ c ∈ text, isBlank c = false)
    (hlabel : ¬ HasDiagramLabel rest) (hfence : ¬ fence <+: rest.dropWhile isInlineBlank) :
    explanation (before ++ (first.text ++ rest)) = trim text := by
  obtain ⟨c, hc, hcblank⟩ := hread
  obtain ⟨after, hrest, -, hpasses⟩ := find?_eq_some_iff.1 htext
  have hfalse : sectionEnd false rest = none := by
    rw [hrest]
    exact Pattern.Passes.eq_none (a := []) hpasses (List.ne_nil_of_mem hc)
  have htrue : sectionEnd true rest = none :=
    sectionEnd_eq_none (fun _ => hlabel) (fun _ => hfence)
      (diagramStart_eq_none_iff.1 (diagramStart_eq_none_of_sectionEnd hfalse)).2
  have hne : trim text ≠ [] := fun hnil =>
    absurd (trim_eq_nil_iff.1 hnil c hc) (by simp [hcblank])
  rw [explanation, h.labelled_section htext htrue, if_neg (by simpa using hne)]

theorem explanation_blanks (h : IsLabelled before first rest)
    (htext : find? sectionEnd false rest = some (text, ())) (hblank : ∀ c ∈ text, isBlank c = true)
    (hlead : find? diagramStart false rest = some (lead, ())) :
    explanation (before ++ (first.text ++ rest)) = trim (before ++ (first.text ++ lead)) := by
  have hlabelled : labelled (before ++ (first.text ++ rest)) = [] := by
    by_cases htrue : sectionEnd true rest = none
    · rw [h.labelled_section htext htrue, trim_eq_nil_iff.2 hblank]
    · have hempty : textBefore sectionEnd ([] ++ rest) = [] := textBefore_append trivial htrue
      rw [h.labelled_eq, ← List.nil_append rest, hempty]
      rfl
  rw [explanation, hlabelled, h.leading_eq hlead]
  exact if_pos rfl

end IsLabelled

theorem exists_section (h : find? diagramStart atLineStart t = some (lead, ())) :
    ∃ text, find? sectionEnd atLineStart t = some (text, ()) := by
  cases hfind : find? sectionEnd atLineStart t with
  | some found => exact ⟨found.1, rfl⟩
  | none =>
    obtain ⟨hpasses, hend⟩ := find?_eq_none_iff.1 hfind
    have hnone : find? diagramStart atLineStart t = none :=
      find?_eq_none_iff.2 ⟨hpasses.imp diagramStart_eq_none_of_sectionEnd,
        diagramStart_eq_none_of_sectionEnd hend⟩
    rw [hnone] at h
    contradiction

end ArchSketch.Reply

namespace ArchSketch

open Text Reply

/-- In a reply with a diagram the section under the first label ends. With something to read in it,
the section is the explanation. Two kinds of text behind the label are left out, those that would be
a label of the diagram or a fence if a line began there. The search for the end starts behind the
label as if one did and ends such a section too early, a defect that no reader of replies should
count on. With nothing but blanks in it, the explanation is all that stands before the diagram. -/
theorem explanation_of_isLabelled {reply : String} {before rest : List Char}
    {first : LabelLine explanationWords} (hdiagram : (extract reply).hasDiagram = true)
    (hreply : reply.toList = before ++ (first.text ++ rest))
    (h : IsLabelled before first rest) :
    ∃ text after, rest = text ++ after ∧ sectionEnd.Passes false text after ∧
      sectionEnd (opensLine false text) after = some () ∧
      ((∃ c ∈ text, isBlank c = false) → ¬ HasDiagramLabel rest →
        ¬ fence <+: rest.dropWhile isInlineBlank →
          (extract reply).explanation.toList = trim text) ∧
      ((∀ c ∈ text, isBlank c = true) → ∃ lead drawing, rest = lead ++ drawing ∧
        diagramStart.Passes false lead drawing ∧
        diagramStart (opensLine false lead) drawing = some () ∧
          (extract reply).explanation.toList = trim (before ++ (first.text ++ lead))) := by
  obtain ⟨t, rfl⟩ : ∃ t, reply = String.ofList t := ⟨reply.toList, by simp⟩
  rw [String.toList_ofList] at hreply
  subst hreply
  have hsource : source (before ++ (first.text ++ rest)) ≠ [] := fun hnil =>
    (hasDiagram_extract _).1 hdiagram (by rw [extract_of_source_eq_nil hnil])
  have hextract := congrArg Extraction.explanation (extract_of_source_ne_nil hsource)
  dsimp only at hextract
  -- the reply has a diagram, and as none begins before the label, one does behind it
  obtain ⟨lead, hlead⟩ := h.exists_lead hsource
  obtain ⟨text, htext⟩ := exists_section hlead
  obtain ⟨after, hrest, hafter, hpasses⟩ := find?_eq_some_iff.1 htext
  refine ⟨text, after, hrest, hpasses, hafter, fun hread hlabel hfence => ?_, fun hblank => ?_⟩
  · rw [hextract, String.toList_ofList, h.explanation_section htext hread hlabel hfence]
  · obtain ⟨drawing, hdrawing, hstart, hleads⟩ := find?_eq_some_iff.1 hlead
    refine ⟨lead, drawing, hdrawing, hleads, hstart, ?_⟩
    rw [hextract, String.toList_ofList, h.explanation_blanks htext hblank hlead]

theorem explanation_shopSection :
    let reply := "Sure!\n **Explanation\t:** a shop\nPLANTUML:\n```puml\nX\n```"
    let rest := " a shop\nPLANTUML:\n```puml\nX\n```".toList
    (extract reply).hasDiagram = true ∧
      reply.toList = "Sure!\n".toList ++ (shopExplanation.text ++ rest) ∧
      IsLabelled "Sure!\n".toList shopExplanation rest ∧
      (extract reply).explanation.toList = "a shop".toList := by
  intro reply rest
  have hdiagram : (extract reply).hasDiagram = true := by decide +kernel
  have hreply : reply.toList = "Sure!\n".toList ++ (shopExplanation.text ++ rest) := by
    decide +kernel
  have h : IsLabelled "Sure!\n".toList shopExplanation rest := by decide +kernel
  have hfind : find? sectionEnd false rest = some (" a shop\n".toList, ()) := by decide +kernel
  obtain ⟨text, after, hrest, hpasses, hends, hread, -⟩ :=
    explanation_of_isLabelled hdiagram hreply h
  obtain rfl : " a shop\n".toList = text := by
    simpa [hfind] using find?_eq_some_iff.2 ⟨after, hrest, hends, hpasses⟩
  refine ⟨hdiagram, hreply, h, ?_⟩
  rw [hread ⟨'a', by decide, by decide⟩ (by decide +kernel) (by decide +kernel)]
  decide +kernel

/-- With an empty section, the label and what stands before it are in the explanation, which is
then no piece of what follows the label. -/
theorem explanation_emptySection :
    let reply := "Sure!\n **Explanation\t:**\n```plantuml\nX\n```"
    let rest := "\n```plantuml\nX\n```".toList
    (extract reply).hasDiagram = true ∧
      reply.toList = "Sure!\n".toList ++ (shopExplanation.text ++ rest) ∧
      IsLabelled "Sure!\n".toList shopExplanation rest ∧
      ¬ ∃ piece, piece <:+: rest ∧ (extract reply).explanation.toList = trim piece := by
  refine ⟨by decide +kernel, by decide +kernel, by decide +kernel, ?_⟩
  rintro ⟨piece, hpiece, heq⟩
  have hextract : extract "Sure!\n **Explanation\t:**\n```plantuml\nX\n```" =
      ⟨"Sure!\n **Explanation\t:**", "X\n"⟩ := by decide +kernel
  have hgreeting : 'S' ∈ trim piece := by
    rw [← heq, hextract]
    decide
  exact absurd (hpiece.subset (trim_subset piece hgreeting)) (by decide)

end ArchSketch
