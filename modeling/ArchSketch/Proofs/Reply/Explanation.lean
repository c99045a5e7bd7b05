import ArchSketch.Proofs.Reply.Block
import ArchSketch.Proofs.Reply.Extraction

/-! The explanation of a reply. Under its label or before the diagram, it is cut off where the first
opening of a diagram stands, so that it has none itself and no block begins before its end. -/
namespace ArchSketch.Reply

open Text Diagram

variable {a l r s t u : List Char} {words : List (List Char)} {atLineStart : Bool}

/-! Labels. -/

/-- A label as it is written, up to its colon. -/
def IsLabel (words : List (List Char)) (l : List Char) : Prop :=
  ∃ decoration word gap, l = decoration ++ word ++ gap ++ [':'] ∧
    (∀ c ∈ decoration, isDecoration c = true) ∧ word.map fold ∈ words ∧
      ∀ c ∈ gap, isInlineBlank c = true

theorem exists_of_label? (h : label? words atLineStart t = some r) :
    atLineStart = true ∧ ∃ l, IsLabel words l ∧ t = l ++ r := by
  unfold label? at h
  split at h
  · rename_i hstart
    split at h
    · rename_i rest hread
      obtain rfl := Option.some.inj h
      obtain ⟨u, hany, hu⟩ := Option.map_eq_some_iff.1 hread
      obtain ⟨word, hword, hmem⟩ := exists_of_afterAny?_eq_some hany
      refine ⟨hstart, _, ⟨t.takeWhile isDecoration, word, u.takeWhile isInlineBlank, rfl,
        fun c hc => List.mem_takeWhile_imp hc, hmem, fun c hc => List.mem_takeWhile_imp hc⟩, ?_⟩
      calc t = t.takeWhile isDecoration ++ t.dropWhile isDecoration :=
            List.takeWhile_append_dropWhile.symm
        _ = t.takeWhile isDecoration ++
            (word ++ (u.takeWhile isInlineBlank ++ u.dropWhile isInlineBlank)) := by
            rw [hword, List.takeWhile_append_dropWhile]
        _ = _ := by rw [hu]; simp
    · contradiction
  · contradiction

theorem fold_of_isDecoration {c : Char} (h : isDecoration c = true) : fold c = c := by
  simp only [isDecoration, isInlineBlank, isEmphasis, Bool.or_eq_true, beq_iff_eq, or_assoc] at h
  rcases h with rfl | rfl | rfl | rfl | rfl <;> decide

theorem label?_of_isLabel (hwords : ∀ a ∈ words, ∀ b ∈ words, a <+: b → a = b)
    (hhead : ∀ word ∈ words, word.head?.any (!isDecoration ·) = true) (hl : IsLabel words l)
    (r : List Char) : label? words true (l ++ r) = some r := by
  obtain ⟨decoration, word, gap, rfl, hdecoration, hword, hgap⟩ := hl
  have hstart : (word ++ (gap ++ ':' :: r)).dropWhile isDecoration = word ++ (gap ++ ':' :: r) := by
    have hletter := hhead _ hword
    cases word with
    | nil => simp at hletter
    | cons c word =>
      have hc : isDecoration (fold c) = false := by simpa using hletter
      rw [List.cons_append, List.dropWhile_cons_of_neg]
      intro hdecorated
      rw [fold_of_isDecoration hdecorated, hdecorated] at hc
      contradiction
  have hcolon : (gap ++ ':' :: r).dropWhile isInlineBlank = ':' :: r := by
    rw [List.dropWhile_append_of_pos hgap]
    rfl
  have hread : afterAny? words (word ++ (gap ++ ':' :: r)) = some (gap ++ ':' :: r) :=
    afterAny?_of_mem hwords hword
  have htext : decoration ++ word ++ gap ++ [':'] ++ r =
      decoration ++ (word ++ (gap ++ ':' :: r)) := by simp
  rw [label?, if_pos rfl, htext, List.dropWhile_append_of_pos hdecoration, hstart, hread,
    Option.map_some, hcolon]
  rfl

theorem IsLabel.not_mem {c : Char} (h : IsLabel words l) (hdecoration : isDecoration c = false)
    (hwords : ∀ word ∈ words, fold c ∉ word) (hcolon : c ≠ ':') : c ∉ l := by
  obtain ⟨decoration, word, gap, rfl, hdecorated, hword, hgap⟩ := h
  have hblank : isInlineBlank c = false := by
    rw [isDecoration, Bool.or_eq_false_iff, Bool.or_eq_false_iff] at hdecoration
    exact hdecoration.1.1
  simp only [List.mem_append, List.mem_singleton, not_or]
  refine ⟨⟨⟨fun hc => ?_, not_mem_of_map_fold hword hwords⟩, fun hc => ?_⟩, hcolon⟩
  · rw [hdecorated c hc] at hdecoration
    contradiction
  · rw [hgap c hc] at hblank
    contradiction

theorem IsLabel.not_mem_append {c : Char} {emphasis : List Char} (h : IsLabel words l)
    (hemphasis : ∀ c ∈ emphasis, isEmphasis c = true) (hdecoration : isDecoration c = false)
    (hwords : ∀ word ∈ words, fold c ∉ word) (hcolon : c ≠ ':') : c ∉ l ++ emphasis := by
  rw [List.mem_append, not_or]
  refine ⟨h.not_mem hdecoration hwords hcolon, fun hc => ?_⟩
  rw [isDecoration, hemphasis c hc, Bool.or_true, Bool.true_or] at hdecoration
  contradiction

/-! Texts in which nothing of the diagram begins. -/

/-- No opening starts in `u` when `s` comes after it. -/
def Clear (u s : List Char) : Prop :=
  ∀ a r, u = a ++ r → r ≠ [] → ¬ ∃ w, IsOpening w ∧ w <+: r ++ s

theorem IsOpening.exists_eq_cons {w : List Char} (h : IsOpening w) :
    ∃ c v, w = c :: v ∧ (c = '\x60' ∨ c = '@') := by
  rcases h with ⟨gap, tag, stop, rfl, -⟩ | hmarker
  · exact ⟨'\x60', _, rfl, .inl rfl⟩
  · have hhead : openingMarker = '@' :: "startuml".toList := rfl
    obtain ⟨c, v, rfl, hc, -⟩ := List.map_eq_cons_iff.1 (hmarker.trans hhead)
    have hself : [c] = ['@'] := eq_of_map_fold (by simp [hc]) (by simp)
    exact ⟨c, v, rfl, .inr (List.singleton_inj.1 hself)⟩

theorem clear_append : Clear (a ++ u) s ↔ Clear a (u ++ s) ∧ Clear u s := by
  constructor
  · refine fun h => ⟨fun x r hr hne => ?_, fun x r hr hne => h (a ++ x) r (by simp [hr]) hne⟩
    rw [← List.append_assoc]
    exact h x (r ++ u) (by simp [hr]) (List.append_ne_nil_of_left_ne_nil hne u)
  · rintro ⟨ha, hu⟩ x r hr hne
    rcases List.append_eq_append_iff.1 hr with ⟨y, rfl, rfl⟩ | ⟨y, rfl, rfl⟩
    · exact hu y r rfl hne
    · cases y with
      | nil => exact hu [] u rfl hne
      | cons c y =>
        rw [List.append_assoc]
        exact ha x (c :: y) rfl (by simp)

theorem clear_of_not_mem (htick : '\x60' ∉ u) (hat : '@' ∉ u) (s : List Char) : Clear u s := by
  rintro x r rfl hne ⟨w, hw, hwr⟩
  obtain ⟨d, r, rfl⟩ := List.exists_cons_of_ne_nil hne
  obtain ⟨c, v, rfl, hc⟩ := hw.exists_eq_cons
  obtain ⟨rfl, -⟩ := List.cons_prefix_cons.1 hwr
  rcases hc with rfl | rfl
  · exact htick (by simp)
  · exact hat (by simp)

theorem clear_of_passes (h : diagramStart.Passes atLineStart u s) : Clear u s := by
  rintro x r rfl hne
  exact (diagramStart_eq_none_iff.1 (h.eq_none hne)).2

theorem Clear.length_le (h : Clear u s) (hr : u ++ s = a ++ r)
    (hopening : ∃ w, IsOpening w ∧ w <+: r) : u.length ≤ a.length := by
  rcases List.append_eq_append_iff.1 hr with ⟨x, rfl, -⟩ | ⟨x, rfl, rfl⟩
  · simp
  · cases x with
    | nil => simp
    | cons c x => exact absurd hopening (h a (c :: x) rfl (by simp))

theorem Clear.of_length_le (h : Clear u s) (hr : u ++ s = a ++ r) (hlength : a.length ≤ u.length) :
    Clear a r := by
  rcases List.append_eq_append_iff.1 hr with ⟨x, rfl, rfl⟩ | ⟨x, rfl, rfl⟩
  · obtain rfl : x = [] := List.eq_nil_of_length_eq_zero (by simpa using hlength)
    simpa using h
  · exact (clear_append.1 h).1

theorem Clear.not_hasOpening (h : Clear u s) : ¬ HasOpening u := by
  rintro ⟨w, hw, x, y, rfl⟩
  have hlength := h.length_le (a := x) (r := w ++ y ++ s) (by simp) ⟨w, hw, by simp⟩
  obtain ⟨c, v, rfl, -⟩ := hw.exists_eq_cons
  simp only [List.length_append, List.length_cons] at hlength
  omega

theorem Clear.fencedBlocks_append (h : Clear u s) : fencedBlocks (u ++ s) = fencedBlocks s := by
  refine blocksFrom_unopened (fun hread => ?_) h
  obtain ⟨w, hw, hprefix⟩ := exists_opener_of_fenced? hread
  exact ⟨w, .inl hw, hprefix⟩

theorem Clear.markedBlocks_append (h : Clear u s) : markedBlocks (u ++ s) = markedBlocks s := by
  refine blocksFrom_unopened (fun hread => ?_) h
  obtain ⟨w, hw, hprefix⟩ := exists_marker_of_marked? hread
  exact ⟨w, .inr hw, hprefix⟩

theorem Clear.source_append (h : Clear u s) : source (u ++ s) = source s := by
  rw [source, source, h.fencedBlocks_append, h.markedBlocks_append]

theorem Clear.source_eq_nil (h : Clear u s) : source u = [] := by
  have hu : Clear u [] := fun x r hr hne => by
    rw [List.append_nil]
    rintro ⟨w, hw, hprefix⟩
    exact h x r hr hne ⟨w, hw, hprefix.trans (List.prefix_append r s)⟩
  rw [← List.append_nil u, hu.source_append]
  rfl

theorem source_trim (t : List Char) : source (trim t) = source t := by
  have hfenced : fencedBlocks (trim t) = fencedBlocks t := isReader_fenced?.blocksFrom_trim t
  have hmarked : markedBlocks (trim t) = markedBlocks t := isReader_marked?.blocksFrom_trim t
  rw [source, source, hfenced, hmarked]

/-! Where the explanation stands. -/

theorem exists_of_explanationLabel (h : explanationLabel atLineStart t = some r) :
    ∃ label, t = label ++ r ∧ ∀ s, Clear label s := by
  obtain ⟨u, hread, rfl⟩ := Option.map_eq_some_iff.1 h
  obtain ⟨-, l, hl, rfl⟩ := exists_of_label? hread
  have hemphasis : ∀ c ∈ u.takeWhile isEmphasis, isEmphasis c = true := fun c hc =>
    List.mem_takeWhile_imp hc
  refine ⟨l ++ u.takeWhile isEmphasis, ?_, clear_of_not_mem
    (hl.not_mem_append hemphasis rfl (by simp; decide) (by decide))
    (hl.not_mem_append hemphasis rfl (by simp; decide) (by decide))⟩
  rw [List.append_assoc, List.takeWhile_append_dropWhile]

theorem diagramStart_eq_none_of_sectionEnd (h : sectionEnd atLineStart t = none) :
    diagramStart atLineStart t = none :=
  (Option.or_eq_none_iff.1 h).2

theorem exists_eq_append_leading (t : List Char) :
    ∃ text after, t = text ++ after ∧ leading t = trim text ∧ Clear text after := by
  obtain ⟨after, ht, hpasses⟩ := exists_eq_textBefore_append diagramStart t
  exact ⟨_, after, ht, rfl, clear_of_passes hpasses⟩

theorem exists_eq_append_labelled (h : labelled t ≠ []) :
    ∃ before text after, t = before ++ text ++ after ∧ labelled t = trim text ∧
      Clear (before ++ text) after := by
  unfold labelled at h ⊢
  split
  · next hnone => simp [hnone] at h
  · next before rest hlabel =>
    rw [hlabel] at h
    dsimp only at h
    split at h
    · exact absurd rfl h
    next hbefore =>
    rw [if_neg hbefore]
    obtain ⟨r, rfl, hfits, -⟩ := find?_eq_some_iff.1 hlabel
    obtain ⟨label, rfl, hclear⟩ := exists_of_explanationLabel hfits
    obtain ⟨after, hrest, hpasses⟩ := exists_eq_textBefore_append sectionEnd rest
    generalize textBefore sectionEnd rest = text at hrest hpasses ⊢
    subst hrest
    refine ⟨before ++ label, text, after, by simp, rfl, ?_⟩
    rw [clear_append, clear_append]
    refine ⟨⟨?_, hclear _⟩, clear_of_passes (hpasses.imp diagramStart_eq_none_of_sectionEnd)⟩
    obtain ⟨r, hr, hstart⟩ := exists_eq_textBefore_append diagramStart
      (before ++ (label ++ (text ++ after)))
    exact (clear_of_passes hstart).of_length_le hr.symm (by omega)

/-- The explanation is a piece of the reply, and up to its end no diagram begins. -/
theorem exists_eq_append_explanation (t : List Char) :
    ∃ before after, t = before ++ explanation t ++ after ∧ trim (explanation t) = explanation t ∧
      Clear (before ++ explanation t) after := by
  obtain ⟨before, text, after, ht, htext, hclear⟩ : ∃ before text after,
      t = before ++ text ++ after ∧ explanation t = trim text ∧ Clear (before ++ text) after := by
    unfold explanation
    split
    · obtain ⟨text, after, ht, hleading, hclear⟩ := exists_eq_append_leading t
      exact ⟨[], text, after, ht, hleading, hclear⟩
    · next hlabelled => exact exists_eq_append_labelled (by simpa using hlabelled)
  obtain ⟨v, w, -, -, htrim⟩ := exists_eq_append_trim text
  rw [htext]
  refine ⟨before ++ v, w ++ after, ?_, trim_trim text, ?_⟩
  · rw [ht]
    conv => lhs; rw [htrim]
    simp
  · rw [htrim, ← List.append_assoc, ← List.append_assoc, clear_append] at hclear
    exact hclear.1

end ArchSketch.Reply

namespace ArchSketch

open Text Reply

theorem explanation_edges {reply : String} (h : (extract reply).source ≠ "") :
    ¬ HasOpening (extract reply).explanation.toList ∧
      ∀ c ∈ (extract reply).explanation.toList.getLast?, isBlank c = false := by
  obtain ⟨t, rfl⟩ : ∃ t, reply = String.ofList t := ⟨reply.toList, by simp⟩
  have hsource : source t ≠ [] := by
    rintro hnil
    exact h (by rw [extract_of_source_eq_nil hnil])
  obtain ⟨before, after, -, htrim, hclear⟩ := exists_eq_append_explanation t
  rw [extract_of_source_ne_nil hsource, String.toList_ofList]
  refine ⟨(clear_append.1 hclear).2.not_hasOpening, fun c hc => ?_⟩
  rw [← htrim] at hc
  exact not_isBlank_of_mem_getLast?_trim hc

/-- A block as it is written in a reply: a tagged fence, or a pair of markers with what stands
between them. -/
def IsBlock (w : List Char) : Prop := (∃ f : Fence, w = f.text) ∨ ∃ p : MarkerPair, w = p.text

theorem IsBlock.exists_opening {w : List Char} (h : IsBlock w) : ∃ v, IsOpening v ∧ v <+: w := by
  rcases h with ⟨f, rfl⟩ | ⟨p, rfl⟩
  · obtain ⟨v, hv, hprefix⟩ := f.exists_opener
    exact ⟨v, .inl hv, hprefix⟩
  · exact ⟨p.opening, .inr p.fold_opening, p.body ++ p.closing, by simp [MarkerPair.text]⟩

/-- The explanation is a piece of the reply without blanks at its ends. When there is a diagram,
all of it is read from what follows the explanation, and no block begins before. Read as a reply,
the explanation is one without a diagram. -/
theorem extract_explanation (reply : String) : ∃ before after,
    reply.toList = before ++ (extract reply).explanation.toList ++ after ∧
      (∀ c ∈ (extract reply).explanation.toList.head?, isBlank c = false) ∧
      (∀ c ∈ (extract reply).explanation.toList.getLast?, isBlank c = false) ∧
      ((extract reply).hasDiagram = true →
        (∀ lead block rest, reply.toList = lead ++ block ++ rest → IsBlock block →
          (before ++ (extract reply).explanation.toList).length ≤ lead.length) ∧
        (extract (String.ofList after)).source = (extract reply).source) ∧
      extract (extract reply).explanation = ⟨(extract reply).explanation, ""⟩ := by
  obtain ⟨t, rfl⟩ : ∃ t, reply = String.ofList t := ⟨reply.toList, by simp⟩
  have hedges (u : List Char) (hu : trim u = u) : (∀ c ∈ u.head?, isBlank c = false) ∧
      ∀ c ∈ u.getLast?, isBlank c = false := by
    rw [← hu]
    exact ⟨fun c => not_isBlank_of_mem_head?_trim, fun c => not_isBlank_of_mem_getLast?_trim⟩
  rw [hasDiagram_extract]
  by_cases hsource : source t = []
  · obtain ⟨before, after, -, -, ht⟩ := exists_eq_append_trim t
    rw [extract_of_source_eq_nil hsource, String.toList_ofList, String.toList_ofList,
      extract_of_source_eq_nil (by rwa [source_trim]), trim_trim]
    obtain ⟨hfirst, hlast⟩ := hedges (trim t) (trim_trim t)
    exact ⟨before, after, ht, hfirst, hlast, fun hne => absurd rfl hne, rfl⟩
  · obtain ⟨before, after, ht, htrim, hclear⟩ := exists_eq_append_explanation t
    have hempty : source (explanation t) = [] := (clear_append.1 hclear).2.source_eq_nil
    obtain ⟨hfirst, hlast⟩ := hedges (explanation t) htrim
    rw [extract_of_source_ne_nil hsource, String.toList_ofList, String.toList_ofList,
      extract_of_source_eq_nil hempty, htrim]
    refine ⟨before, after, ht, hfirst, hlast, fun _ => ⟨?_, ?_⟩, rfl⟩
    · intro lead block rest hblock hwritten
      obtain ⟨w, hw, hprefix⟩ := hwritten.exists_opening
      refine hclear.length_le (by rw [← ht, hblock, List.append_assoc]) ⟨w, hw, ?_⟩
      exact hprefix.trans (List.prefix_append block rest)
    · rw [source_extract, String.toList_ofList, ← hclear.source_append, ← ht]

end ArchSketch
