import ArchSketch.Proofs.Reply.Block
import ArchSketch.Proofs.Reply.Extraction

/-! Where markers stand in a text. The sign of a marker stands at its start and nowhere else in it,
so markers never overlap, and none reaches into a text that begins with another. -/
namespace ArchSketch.Reply

open Text Diagram

variable {a b l s t u v w marker : List Char} {c : Char}

def Mentions (marker t : List Char) : Prop := ∃ w, w.map fold = marker ∧ w <:+: t

theorem mentions_iff :
    Mentions marker t ↔ (t.tails.any fun r => (afterWord? marker r).isSome) = true := by
  simp only [Mentions, List.infix_iff_prefix_suffix, List.any_eq_true, isSome_afterWord?_iff,
    List.mem_tails]
  grind

instance : Decidable (Mentions marker t) := decidable_of_iff _ mentions_iff.symm

theorem Mentions.mono (h : Mentions marker t) (ht : t <:+: u) : Mentions marker u := by
  obtain ⟨w, hw, hwt⟩ := h
  exact ⟨w, hw, hwt.trans ht⟩

theorem mentions_of_eq_append (h : t = a ++ w ++ b) (hw : w.map fold = marker) :
    Mentions marker t :=
  ⟨w, hw, a, b, h.symm⟩

theorem exists_sign (h : w.map fold ∈ [openingMarker, closingMarker]) :
    ∃ v, w = '@' :: v ∧ '@' ∉ v := by
  have hsign : ∀ marker ∈ [openingMarker, closingMarker],
      marker.head? = some '@' ∧ '@' ∉ marker.tail := by decide
  obtain ⟨hhead, htail⟩ := hsign _ h
  cases w with
  | nil => simp at hhead
  | cons c v =>
    have hc : [c] = ['@'] := eq_of_map_fold (by simpa using hhead) (by simp)
    refine ⟨v, by simpa using hc, fun hm => htail ?_⟩
    exact List.mem_map_of_mem hm

theorem sign_not_mem_tail (h : w.map fold ∈ [openingMarker, closingMarker]) : '@' ∉ w.tail := by
  obtain ⟨v, rfl, hv⟩ := exists_sign h
  exact hv

theorem Mentions.or_of_append (hmarker : marker ∈ [openingMarker, closingMarker])
    (h : Mentions marker (a ++ '@' :: b)) : Mentions marker a ∨ Mentions marker ('@' :: b) := by
  obtain ⟨w, hw, hwithin⟩ := h
  subst hw
  exact (infix_append_head (sign_not_mem_tail hmarker) hwithin).imp (⟨w, rfl, ·⟩) (⟨w, rfl, ·⟩)

theorem not_mem_marker (h : w.map fold ∈ [openingMarker, closingMarker])
    (hc : isBlank c = true) : c ∉ w := by
  intro hm
  have hwords : ∀ marker ∈ [openingMarker, closingMarker], NoBlanks marker := by decide
  have hblank := noBlanks_of_map_fold (hwords _ h) c hm
  rw [hc] at hblank
  contradiction

/-- A marker does not reach over a blank or a line end. -/
theorem Mentions.or_of_blank (hmarker : marker ∈ [openingMarker, closingMarker])
    (hc : isBlank c = true) (h : Mentions marker (a ++ c :: b)) :
    Mentions marker a ∨ Mentions marker b := by
  obtain ⟨w, hw, hwithin⟩ := h
  subst hw
  have hw := not_mem_marker hmarker hc
  exact (infix_of_infix_append_cons hw hwithin).imp (⟨w, rfl, ·⟩) (⟨w, rfl, ·⟩)

theorem Mentions.of_append (hmarker : marker ∈ [openingMarker, closingMarker]) (hv : '@' ∉ v)
    (h : Mentions marker (v ++ b)) : Mentions marker b := by
  induction v with
  | nil => exact h
  | cons c v ih =>
    obtain ⟨w, hw, hwithin⟩ := h
    subst hw
    rcases List.infix_cons_iff.1 hwithin with hprefix | hwithin
    · obtain ⟨u, rfl, -⟩ := Reply.exists_sign hmarker
      have hc : '@' = c := (List.cons_prefix_cons.1 hprefix).1
      exact absurd hc (List.ne_of_not_mem_cons hv)
    · exact ih (List.not_mem_of_not_mem_cons hv) ⟨w, rfl, hwithin⟩

theorem mentions_of_opening_append (hw : w.map fold = openingMarker)
    (h : Mentions closingMarker (w ++ b)) : Mentions closingMarker b := by
  obtain ⟨v, rfl, hv⟩ := exists_sign (w := w) (by simp [hw])
  obtain ⟨u, hu, hwithin⟩ := h
  rcases List.infix_cons_iff.1 hwithin with hprefix | hwithin
  · have hlength : (u.map fold).length ≤ (('@' :: v).map fold).length := by
      rw [hu, hw]
      decide
    rw [List.length_map, List.length_map] at hlength
    have hwithin := List.prefix_of_prefix_length_le hprefix (List.prefix_append _ b) hlength
    have hmarkers := hwithin.map fold
    rw [hu, hw] at hmarkers
    exact absurd hmarkers (by decide)
  · exact Mentions.of_append (by simp) hv ⟨u, hu, hwithin⟩

/-! Pairs of markers. -/

def MarkerPair.ofParts (opening body closing : List Char)
    (hopening : opening.map fold = openingMarker := by decide +kernel)
    (hclosing : closing.map fold = closingMarker := by decide +kernel)
    (hbody : ¬ Mentions closingMarker body := by decide +kernel) : MarkerPair :=
  ⟨opening, body, closing, hopening, hclosing, fun w hw hmarker => hbody ⟨w, hmarker, hw⟩⟩

theorem MarkerPair.exists_sign (p : MarkerPair) : ∃ v, p.text = '@' :: v := by
  obtain ⟨v, hv, -⟩ := Reply.exists_sign (w := p.opening) (by simp [p.fold_opening])
  exact ⟨v ++ p.body ++ p.closing, by simp [MarkerPair.text, hv]⟩

/-! What pairs are joined to. -/

theorem trim_text (p : MarkerPair) : trim p.text = p.text := by
  obtain ⟨c, v, hfirst, hc⟩ := isReader_marked?.first ⟨p, rfl, rfl⟩
  obtain ⟨u, d, hlast, hd⟩ := isReader_marked?.last ⟨p, rfl, rfl⟩
  refine trim_of_edges ?_ ?_
  · simpa [hfirst] using hc
  · simpa [hlast] using hd

theorem joinBlocks_text_cons (p : MarkerPair) (blocks : List (List Char)) :
    joinBlocks (p.text :: blocks) = p.text ++ '\n' :: joinBlocks blocks := by
  obtain ⟨c, v, hfirst, hc⟩ := isReader_marked?.first ⟨p, rfl, rfl⟩
  have hany : p.text.any (!isBlank ·) = true := by simp [hfirst, hc]
  rw [joinBlocks_cons, if_pos hany, trim_text, List.append_assoc, List.singleton_append]

theorem joinBlocks_map_text (pairs : List MarkerPair) :
    joinBlocks (pairs.map MarkerPair.text) = (pairs.map MarkerPair.text).flatMap (· ++ ['\n']) := by
  induction pairs with
  | nil => rfl
  | cons p pairs ih => simp [joinBlocks_text_cons, ih]

theorem markedBlocks_prose (hu : ¬ Mentions openingMarker u) (hs : s = [] ∨ s.head? = some '@') :
    markedBlocks (u ++ s) = markedBlocks s := by
  apply blocksFrom_unopened exists_marker_of_marked?
  intro a r hr hne hopens
  apply hu
  obtain ⟨w, hw, hprefix⟩ := hopens
  have hwr : w <+: r := by
    rcases hs with rfl | hs
    · simpa using hprefix
    · obtain ⟨s, rfl⟩ := List.head?_eq_some_iff.1 hs
      exact prefix_of_prefix_append_head (sign_not_mem_tail (by simp [hw])) hne hprefix
  exact ⟨w, hw, hwr.isInfix.trans ⟨a, [], by simp [hr]⟩⟩

theorem markedBlocks_append_newline (hu : ¬ Mentions openingMarker u) (s : List Char) :
    markedBlocks (u ++ '\n' :: s) = markedBlocks s := by
  apply blocksFrom_unopened (s := '\n' :: s) exists_marker_of_marked?
  intro a r hr hne hopens
  apply hu
  obtain ⟨w, hw, hprefix⟩ := hopens
  have hwr := prefix_of_prefix_append_cons (newline_not_mem_marker hw) hprefix
  exact ⟨w, hw, hwr.isInfix.trans ⟨a, [], by simp [hr]⟩⟩

end ArchSketch.Reply
