import ArchSketch.Proofs.Diagram.Call
import ArchSketch.Proofs.Diagram.Line
import ArchSketch.Proofs.Diagram.Slip

/-! A document as a function of the lines of its source. The passes over the whole text come to the
same as looking at each line on its own: which line gives the title, and which lines stay in the
body. -/
namespace ArchSketch.Diagram

open Text

variable {line : List Char} {ls unread : List (List Char)}

def titleOf? (line : List Char) : Option (List Char) :=
  ((afterMarker? openingMarker line).map trim).filter (!·.isEmpty)

def isContent (line : List Char) : Bool :=
  (afterMarker? openingMarker line).isNone && (afterMarker? closingMarker line).isNone &&
    !isLibraryInclude line

theorem isContent_iff : isContent line = true ↔ ¬ IsMarkerLine line ∧ ¬ IsLibraryLine line := by
  rw [isMarkerLine_iff, ← isLibraryInclude_iff]
  simp only [isContent, Bool.and_eq_true, Option.isNone_iff_eq_none, Bool.not_eq_true', not_or,
    Bool.not_eq_true, Option.isSome_eq_false_iff]

theorem titleOf?_trimEnd (line : List Char) : titleOf? (trimEnd line) = titleOf? line := by
  rw [titleOf?, afterMarker?_trimEnd noBlanks_openingMarker, titleOf?]
  cases afterMarker? openingMarker line <;> simp

theorem isContent_trimEnd (line : List Char) : isContent (trimEnd line) = isContent line := by
  rw [isContent, afterMarker?_trimEnd noBlanks_openingMarker,
    afterMarker?_trimEnd noBlanks_closingMarker, isLibraryInclude_trimEnd, isContent]
  simp

theorem titleOf?_of_isContent (h : isContent line = true) : titleOf? line = none := by
  simp only [isContent, Bool.and_eq_true, Option.isNone_iff_eq_none] at h
  simp [titleOf?, h.1.1]

theorem isContent_of_isUpper {indent u : List Char} {c : Char}
    (hi : ∀ d ∈ indent, isInlineBlank d = true) (hc : c.isUpper = true) :
    isContent (indent ++ c :: u) = true := by
  have hc' : 65 ≤ c.toNat ∧ c.toNat ≤ 90 := toNat_of_isUpper hc
  have hblank : isBlank c = false := by
    cases hb : isBlank c with
    | false => rfl
    | true =>
      simp only [isBlank, Bool.or_eq_true, Bool.and_eq_true, decide_eq_true_eq, beq_iff_eq] at hb
      omega
  have hstart : trimStart (indent ++ c :: u) = c :: u := by
    rw [trimStart_append_blanks _ fun d hd => isBlank_of_isInlineBlank (hi d hd)]
    exact trimStart_cons_of_not_isBlank hblank
  have hfold : fold c ≠ '@' ∧ fold c ≠ '!' := by
    have hall : ∀ n ∈ List.range' 65 26, fold (Char.ofNat n) ≠ '@' ∧ fold (Char.ofNat n) ≠ '!' := by
      decide
    simpa using hall c.toNat (by simp; omega)
  have hmarker (marker : List Char) (hm : marker.head? = some '@') :
      afterMarker? marker (indent ++ c :: u) = none := by
    rw [afterMarker?, hstart, afterWord?_eq_none_of_head]
    · rfl
    · rintro rfl
      contradiction
    · intro d hd
      obtain rfl : c = d := by simpa using hd
      rw [hm]
      simpa using hfold.1.symm
  have hlibrary : isLibraryInclude (indent ++ c :: u) = false := by
    rw [isLibraryInclude, hstart, afterWord?_eq_none_of_head (by decide)]
    intro d hd
    obtain rfl : c = d := by simpa using hd
    simpa using hfold.2.symm
  simp [isContent, hmarker openingMarker rfl, hmarker closingMarker rfl, hlibrary]

theorem isContent_of_read? {s : Slip} (h : Slip.read? line = some s) :
    isContent line = true ∧ isContent (repair line) = true := by
  obtain ⟨hs, gap, -, rfl⟩ := Slip.exists_written_of_read? h
  obtain ⟨c, name, hn, hu⟩ := hs.exists_name_eq_cons
  have hw := isContent_of_isUpper hs.indent hu
    (u := name ++ '/' :: s.aliasName ++ gap ++ ',' :: s.rest)
  have hr := isContent_of_isUpper hs.indent hu (u := name ++ '(' :: s.aliasName ++ ',' :: s.rest)
  rw [repair_of_read? h]
  simp only [Slip.written, Slip.head, hn, List.append_assoc, List.cons_append,
    List.nil_append] at hw hr ⊢
  exact ⟨hw, hr⟩

theorem isContent_repair (line : List Char) : isContent (repair line) = isContent line := by
  cases h : Slip.read? line with
  | none => rw [repair_of_read?_eq_none h]
  | some s => rw [(isContent_of_read? h).1, (isContent_of_read? h).2]

theorem titleOf?_repair (line : List Char) : titleOf? (repair line) = titleOf? line := by
  cases h : Slip.read? line with
  | none => rw [repair_of_read?_eq_none h]
  | some s =>
    rw [titleOf?_of_isContent (isContent_of_read? h).1,
      titleOf?_of_isContent (isContent_of_read? h).2]

/-! Blank lines at the ends. -/

theorem isBlankLine_iff : isBlankLine line = true ↔ ∀ c ∈ line, isBlank c = true := by
  rw [isBlankLine, List.isEmpty_iff, trim_eq_nil_iff]

theorem trimLastLines_cons (l : List Char) (ls : List (List Char)) :
    trimLastLines (l :: ls) = if (trimLastLines ls).isEmpty && isBlankLine l then []
      else l :: trimLastLines ls := rfl

theorem trimLastLines_append_blanks {bottom : List (List Char)}
    (h : ∀ l ∈ bottom, isBlankLine l = true) (ls : List (List Char)) :
    trimLastLines (ls ++ bottom) = trimLastLines ls := by
  induction ls with
  | nil =>
    induction bottom with
    | nil => rfl
    | cons l bottom ih =>
      obtain ⟨hl, h⟩ := List.forall_mem_cons.1 h
      rw [List.nil_append] at ih ⊢
      rw [trimLastLines_cons, ih h, hl]
      rfl
  | cons l ls ih => rw [List.cons_append, trimLastLines_cons, ih, trimLastLines_cons]

theorem trimLastLines_of_getLast (h : ∀ l ∈ ls.getLast?, isBlankLine l = false) :
    trimLastLines ls = ls := by
  induction ls with
  | nil => rfl
  | cons l ls ih =>
    cases ls with
    | nil => simp [trimLastLines, h l rfl]
    | cons m ls =>
      rw [trimLastLines_cons, ih (by simpa using h)]
      rfl

theorem exists_eq_trimLastLines_append (ls : List (List Char)) :
    ∃ bottom, (∀ l ∈ bottom, isBlankLine l = true) ∧ ls = trimLastLines ls ++ bottom ∧
      ∀ l ∈ (trimLastLines ls).getLast?, isBlankLine l = false := by
  induction ls with
  | nil => exact ⟨[], by simp [trimLastLines]⟩
  | cons l ls ih =>
    obtain ⟨bottom, hb, hls, hlast⟩ := ih
    rw [trimLastLines_cons]
    split
    · rename_i h
      rw [Bool.and_eq_true, List.isEmpty_iff] at h
      rw [h.1, List.nil_append] at hls
      exact ⟨l :: ls, List.forall_mem_cons.2 ⟨h.2, hls ▸ hb⟩, rfl, by simp⟩
    · rename_i h
      refine ⟨bottom, hb, by rw [List.cons_append, ← hls], ?_⟩
      cases ht : trimLastLines ls with
      | nil => simpa [ht] using h
      | cons m rest =>
        rw [List.getLast?_cons_cons]
        rwa [ht] at hlast

theorem trimLines_append_blanks {bottom : List (List Char)}
    (h : ∀ l ∈ bottom, isBlankLine l = true) (ls : List (List Char)) :
    trimLines (ls ++ bottom) = trimLines ls := by
  unfold trimLines
  rw [List.dropWhile_append]
  split
  · rename_i hls
    rw [List.isEmpty_iff] at hls
    rw [hls, List.dropWhile_eq_nil_iff.2 h]
  · exact trimLastLines_append_blanks h _

theorem trimLines_of_edges (hfirst : ∀ l ∈ ls.head?, isBlankLine l = false)
    (hlast : ∀ l ∈ ls.getLast?, isBlankLine l = false) : trimLines ls = ls := by
  have : ls.dropWhile isBlankLine = ls := by
    cases ls with
    | nil => rfl
    | cons l ls => simp [hfirst l rfl]
  rw [trimLines, this, trimLastLines_of_getLast hlast]

theorem trimLines_cons (hl : isBlankLine l = false) (ls : List (List Char)) :
    trimLines (l :: ls) = l :: trimLastLines ls := by
  rw [trimLines, List.dropWhile_cons_of_neg (by simp [hl]), trimLastLines_cons]
  simp [hl]

theorem exists_eq_trimLines (ls : List (List Char)) :
    ∃ top bottom, ls = top ++ trimLines ls ++ bottom ∧
      (∀ l ∈ top ++ bottom, isBlankLine l = true) ∧
      (∀ l ∈ (trimLines ls).head?, isBlankLine l = false) ∧
      (∀ l ∈ (trimLines ls).getLast?, isBlankLine l = false) := by
  obtain ⟨bottom, hb, hls, hlast⟩ := exists_eq_trimLastLines_append (ls.dropWhile isBlankLine)
  refine ⟨ls.takeWhile isBlankLine, bottom, ?_, ?_, ?_, hlast⟩
  · rw [trimLines, List.append_assoc, ← hls, List.takeWhile_append_dropWhile]
  · intro l hl
    rcases List.mem_append.1 hl with hl | hl
    · exact List.mem_takeWhile_imp hl
    · exact hb l hl
  · intro l hl
    rw [trimLines] at hl
    have hhead := List.head?_dropWhile_not isBlankLine ls
    rw [hls, List.head?_append, hl] at hhead
    simpa using hhead

namespace Document

def ofLines (ls : List (List Char)) : Document :=
  ⟨ls.findSome? titleOf?, trimLines ((ls.filter isContent).map fun l => repair (trimEnd l))⟩

theorem addLine_eq (d : Document) (line : List Char) : d.addLine line =
    ⟨d.title.or (titleOf? line), d.body ++ (if isContent line then [trimEnd line] else [])⟩ := by
  obtain ⟨title, body⟩ := d
  unfold addLine titleOf? isContent
  cases afterMarker? openingMarker line with
  | some rest => cases title <;> cases h : (trim rest).isEmpty <;> simp [h, Option.filter]
  | none =>
    cases afterMarker? closingMarker line <;> cases isLibraryInclude line <;> simp

theorem foldl_addLine (d : Document) (ls : List (List Char)) : ls.foldl addLine d =
    ⟨d.title.or (ls.findSome? titleOf?), d.body ++ (ls.filter isContent).map trimEnd⟩ := by
  induction ls generalizing d with
  | nil => simp
  | cons l ls ih =>
    rw [List.foldl_cons, ih, addLine_eq, List.findSome?_cons, List.filter_cons]
    cases titleOf? l <;> cases isContent l <;> simp

theorem foldl_addLine_empty (ls : List (List Char)) :
    (ls.foldl addLine empty).trimBody =
      ⟨(ls.map trimEnd).findSome? titleOf?, trimLines ((ls.map trimEnd).filter isContent)⟩ := by
  have htitle : titleOf? ∘ trimEnd = titleOf? := funext titleOf?_trimEnd
  have hcontent : isContent ∘ trimEnd = isContent := funext isContent_trimEnd
  rw [foldl_addLine, List.findSome?_map, List.filter_map, htitle, hcontent]
  rfl

/-- Going over the whole text in passes reads the same document as looking at each line. -/
theorem ofSource_eq (source : List Char) : ofSource source = ofLines (lines source) := by
  obtain ⟨last, hlast, hclosed⟩ := map_trimEnd_closedLines (repairText (plainEnds source))
  have hlines : (closedLines (repairText (plainEnds source))).map trimEnd ++ last =
      (lines source).map fun l => repair (trimEnd l) := by
    -- the passes repair first and trim then, a line on its own is trimmed first
    have hcomm : trimEnd ∘ repair = repair ∘ trimEnd := funext fun l => (repair_trimEnd l).symm
    rw [← hclosed, lines_repairText, List.map_map, hcomm, ← List.map_map,
      map_trimEnd_lines_plainEnds, List.map_map]
    rfl
  have htitle : (fun l => titleOf? (repair (trimEnd l))) = titleOf? := by
    funext l
    rw [titleOf?_repair, titleOf?_trimEnd]
  have hcontent : (fun l => isContent (repair (trimEnd l))) = isContent := by
    funext l
    rw [isContent_repair, isContent_trimEnd]
  have hnil : last.findSome? titleOf? = none ∧ last.filter isContent = last := by
    constructor
    · rw [List.findSome?_eq_none_iff]
      intro l hl
      rw [hlast l hl]
      rfl
    · rw [List.filter_eq_self]
      intro l hl
      rw [hlast l hl]
      rfl
  have hbottom : ∀ l ∈ last, isBlankLine l = true := by
    intro l hl
    rw [hlast l hl]
    rfl
  rw [ofSource, foldl_addLine_empty, ofLines, mk.injEq]
  constructor
  · calc _ = ((closedLines (repairText (plainEnds source))).map trimEnd ++ last).findSome?
            titleOf? := by rw [List.findSome?_append, hnil.1, Option.or_none]
      _ = (lines source).findSome? titleOf? := by
          rw [hlines, List.findSome?_map, Function.comp_def, htitle]
  · calc _ = trimLines (((closedLines (repairText (plainEnds source))).map trimEnd ++ last).filter
            isContent) := by rw [List.filter_append, hnil.2, trimLines_append_blanks hbottom]
      _ = _ := by rw [hlines, List.filter_map, Function.comp_def, hcontent]

theorem ofLines_append_unread (h : ∀ l ∈ unread, isContent l = false ∧ titleOf? l = none)
    (a b : List (List Char)) : ofLines (a ++ unread ++ b) = ofLines (a ++ b) := by
  have hcontent : unread.filter isContent = [] :=
    List.filter_eq_nil_iff.2 fun l hl => by simp [(h l hl).1]
  have htitle : unread.findSome? titleOf? = none :=
    List.findSome?_eq_none_iff.2 fun l hl => (h l hl).2
  simp [ofLines, hcontent, htitle, List.findSome?_append]

theorem ofLines_append_nil (ls : List (List Char)) : ofLines (ls ++ [[]]) = ofLines ls := by
  have hblank : trimLines (((ls ++ [[]]).filter isContent).map fun l => repair (trimEnd l)) =
      trimLines ((ls.filter isContent).map fun l => repair (trimEnd l)) := by
    rw [List.filter_append, List.map_append]
    exact trimLines_append_blanks (by decide) _
  have htitle : titleOf? [] = none := by decide
  rw [ofLines, hblank, ofLines]
  simp [List.findSome?_append, htitle]

theorem ofLines_map_trimEnd (ls : List (List Char)) : ofLines (ls.map trimEnd) = ofLines ls := by
  have htitle : titleOf? ∘ trimEnd = titleOf? := funext titleOf?_trimEnd
  have hcontent : isContent ∘ trimEnd = isContent := funext isContent_trimEnd
  simp [ofLines, List.findSome?_map, List.filter_map, htitle, hcontent, Function.comp_def]

theorem ofSource_congr {s t : List Char} (h : (lines s).map trimEnd = (lines t).map trimEnd) :
    ofSource s = ofSource t := by
  rw [ofSource_eq, ← ofLines_map_trimEnd, h, ofLines_map_trimEnd, ofSource_eq]

end Document
end ArchSketch.Diagram
