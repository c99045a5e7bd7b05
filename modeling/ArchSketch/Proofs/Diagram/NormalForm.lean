import ArchSketch.Proofs.Diagram.Document

/-! The normal form of diagram source. A document that was read from a source is tidy: its lines are
content, repaired and trimmed. Writing a tidy document puts lines around its body that are told
apart as what they are, so the text that is written has the parts of a document once each, and
reading it again gives the document back with its styling as part of the body. -/
namespace ArchSketch.Diagram

open Text

structure Document.IsTidy (d : Document) : Prop where
  title : ∀ t ∈ d.title, t ≠ [] ∧ trim t = t ∧ '\n' ∉ t
  content : ∀ l ∈ d.body, isContent l = true
  settled : ∀ l ∈ d.body, repair (trimEnd l) = l
  oneLine : ∀ l ∈ d.body, '\n' ∉ l
  first : ∀ l ∈ d.body.head?, isBlankLine l = false
  last : ∀ l ∈ d.body.getLast?, isBlankLine l = false

theorem trimLines_subset (ls : List (List Char)) : trimLines ls ⊆ ls := by
  obtain ⟨top, bottom, h, -⟩ := exists_eq_trimLines ls
  intro l hl
  rw [h]
  exact List.mem_append_left _ (List.mem_append_right _ hl)

theorem exists_of_titleOf? {line title : List Char} (h : titleOf? line = some title) :
    ∃ rest, title = trim rest ∧ rest <:+ line ∧ title ≠ [] := by
  rw [titleOf?, Option.filter_eq_some_iff, Option.map_eq_some_iff] at h
  obtain ⟨⟨rest, hrest, rfl⟩, hne⟩ := h
  refine ⟨rest, rfl, ?_, by simpa using hne⟩
  obtain ⟨blanks, word, rfl, -⟩ :=
    (afterMarker?_eq_some_iff noBlanks_openingMarker (by decide)).1 hrest
  exact List.suffix_append _ _

theorem Document.ofLines_isTidy {ls : List (List Char)} (h : ∀ l ∈ ls, '\n' ∉ l) :
    (Document.ofLines ls).IsTidy := by
  have hbody : ∀ b ∈ (ofLines ls).body, ∃ l ∈ ls, isContent l = true ∧ b = repair (trimEnd l) := by
    intro b hb
    obtain ⟨l, hl, rfl⟩ := List.mem_map.1 (trimLines_subset _ hb)
    obtain ⟨hl, hc⟩ := List.mem_filter.1 hl
    exact ⟨l, hl, hc, rfl⟩
  obtain ⟨-, -, -, -, hfirst, hlast⟩ :=
    exists_eq_trimLines ((ls.filter isContent).map fun l => repair (trimEnd l))
  refine ⟨?_, ?_, ?_, ?_, hfirst, hlast⟩
  · intro t ht
    obtain ⟨l, hl, ht⟩ := List.exists_of_findSome?_eq_some ht
    obtain ⟨rest, rfl, hrest, hne⟩ := exists_of_titleOf? ht
    exact ⟨hne, trim_trim rest, fun hm => h l hl (hrest.subset (trim_subset rest hm))⟩
  · intro b hb
    obtain ⟨l, -, hc, rfl⟩ := hbody b hb
    rw [isContent_repair, isContent_trimEnd, hc]
  · intro b hb
    obtain ⟨l, -, -, rfl⟩ := hbody b hb
    rw [repair_trimEnd, repair_repair, ← repair_trimEnd, trimEnd_trimEnd]
  · intro b hb
    obtain ⟨l, hl, -, rfl⟩ := hbody b hb
    exact newline_not_mem_repair fun hm => h l hl (trimEnd_subset l hm)

theorem Document.ofSource_isTidy (source : List Char) : (Document.ofSource source).IsTidy := by
  rw [ofSource_eq]
  exact ofLines_isTidy fun l => newline_not_mem_of_mem_lines

namespace Document

variable {d : Document}

/-! The lines that are written, each told apart as what it is. -/

def outline (d : Document) : List (List Char) :=
  d.heading :: includes (level? d.text) ++ d.styling ++ d.body ++ [closingMarker]

theorem exists_afterMarker?_heading (d : Document) :
    ∃ rest, afterMarker? openingMarker d.heading = some rest ∧
      trim rest = trim (d.title.getD []) := by
  obtain ⟨title, body⟩ := d
  cases title with
  | none => exact ⟨[], show afterMarker? openingMarker openingMarker = some [] by decide, rfl⟩
  | some t =>
    refine ⟨' ' :: t, ?_, ?_⟩
    · exact (afterMarker?_eq_some_iff noBlanks_openingMarker (by decide)).2
        ⟨[], openingMarker, rfl, by simp, by decide, rfl⟩
    · simp [trim, trimStart_cons_of_isBlank (c := ' ') (by decide)]

theorem IsTidy.titleOf?_heading (h : d.IsTidy) : titleOf? d.heading = d.title := by
  obtain ⟨rest, hrest, htrim⟩ := exists_afterMarker?_heading d
  rw [titleOf?, hrest, Option.map_some, htrim]
  cases ht : d.title with
  | none => rfl
  | some t =>
    obtain ⟨hne, htrim, -⟩ := h.title t ht
    simp [htrim, hne, Option.filter]

theorem IsTidy.newline_not_mem_heading (h : d.IsTidy) : '\n' ∉ d.heading := by
  unfold heading
  split
  · decide
  · rename_i t ht
    have hmarker : '\n' ∉ openingMarker := by decide
    simpa [hmarker] using (h.title t ht).2.2

theorem isContent_heading (d : Document) : isContent d.heading = false := by
  obtain ⟨rest, hrest, -⟩ := exists_afterMarker?_heading d
  simp [isContent, hrest]

theorem of_mem_includes {level : Option Level} {l : List Char} (h : l ∈ includes level) :
    isLibraryInclude l = true ∧ isContent l = false ∧ titleOf? l = none ∧ '\n' ∉ l ∧
      ¬ IsMarkerLine l := by
  rw [isMarkerLine_iff]
  revert l
  rcases level with _ | _ | _ | _ <;> decide

theorem of_mem_styling {l : List Char} (h : l ∈ d.styling) :
    isContent l = true ∧ repair (trimEnd l) = l ∧ '\n' ∉ l ∧ isBlankLine l = false := by
  unfold styling at h
  split at h
  · contradiction
  · revert l
    decide

theorem IsTidy.newline_not_mem_outline (h : d.IsTidy) : ∀ l ∈ d.outline, '\n' ∉ l := by
  intro l hl
  simp only [outline, List.cons_append, List.mem_cons, List.mem_append, List.not_mem_nil,
    or_false] at hl
  rcases hl with rfl | ((hl | hl) | hl) | rfl
  · exact h.newline_not_mem_heading
  · exact (of_mem_includes hl).2.2.2.1
  · exact (of_mem_styling hl).2.2.1
  · exact h.oneLine l hl
  · decide

theorem IsTidy.lines_render (h : d.IsTidy) : lines d.render = d.outline :=
  lines_unlines (by simp) h.newline_not_mem_outline

/-! Reading back what was written. -/

theorem IsTidy.trimLines_styling_body (h : d.IsTidy) :
    trimLines (d.styling ++ d.body) = d.styling ++ d.body := by
  apply trimLines_of_edges
  · intro l hl
    rw [List.head?_append, Option.mem_def, Option.or_eq_some_iff] at hl
    rcases hl with hl | ⟨-, hl⟩
    · exact (of_mem_styling (List.mem_of_mem_head? hl)).2.2.2
    · exact h.first l hl
  · intro l hl
    rw [List.getLast?_append, Option.mem_def, Option.or_eq_some_iff] at hl
    rcases hl with hl | ⟨-, hl⟩
    · exact h.last l hl
    · exact (of_mem_styling (List.mem_of_getLast? hl)).2.2.2

/-- Settled content after the first line of a tidy document makes up the document. -/
theorem IsTidy.ofLines_heading (h : d.IsTidy) {ls : List (List Char)}
    (hls : ∀ l ∈ ls, isContent l = true ∧ repair (trimEnd l) = l) :
    ofLines (d.heading :: ls) = ⟨d.title, trimLines ls⟩ := by
  have hfilter : ls.filter isContent = ls := List.filter_eq_self.2 fun l hl => (hls l hl).1
  have hmap : ls.map (fun l => repair (trimEnd l)) = ls :=
    (List.map_congr_left fun l hl => (hls l hl).2).trans (List.map_id ls)
  have htitle : ls.findSome? titleOf? = none :=
    List.findSome?_eq_none_iff.2 fun l hl => titleOf?_of_isContent (hls l hl).1
  rw [ofLines, List.filter_cons_of_neg (by simp [isContent_heading]), hfilter, hmap,
    List.findSome?_cons, h.titleOf?_heading, htitle]
  cases d.title <;> rfl

theorem IsTidy.ofSource_render (h : d.IsTidy) :
    ofSource d.render = ⟨d.title, d.styling ++ d.body⟩ := by
  have hincludes : ∀ l ∈ includes (level? d.text), isContent l = false ∧ titleOf? l = none :=
    fun l hl => ⟨(of_mem_includes hl).2.1, (of_mem_includes hl).2.2.1⟩
  have hclosing : ∀ l ∈ [closingMarker], isContent l = false ∧ titleOf? l = none := by decide
  have hlines : ∀ l ∈ d.styling ++ d.body, isContent l = true ∧ repair (trimEnd l) = l := by
    intro l hl
    rcases List.mem_append.1 hl with hl | hl
    · exact ⟨(of_mem_styling hl).1, (of_mem_styling hl).2.1⟩
    · exact ⟨h.content l hl, h.settled l hl⟩
  calc ofSource d.render = ofLines d.outline := by rw [ofSource_eq, h.lines_render]
    _ = ofLines ([d.heading] ++ includes (level? d.text) ++
          (d.styling ++ d.body ++ [closingMarker])) := by simp [outline]
    _ = ofLines (d.heading :: (d.styling ++ d.body) ++ [closingMarker] ++ []) := by
        rw [ofLines_append_unread hincludes]
        simp
    _ = ofLines (d.heading :: (d.styling ++ d.body)) := by
        rw [ofLines_append_unread hclosing, List.append_nil]
    _ = ⟨d.title, d.styling ++ d.body⟩ := by
        rw [h.ofLines_heading hlines, h.trimLines_styling_body]

theorem render_with_styling (d : Document) :
    render ⟨d.title, d.styling ++ d.body⟩ = d.render := by
  by_cases hs : hasStyling d.text
  · have : d.styling = [] := if_pos hs
    rw [this, List.nil_append]
  · have hd : d.styling = defaultStyling := if_neg hs
    have hlevel : level? (text ⟨d.title, defaultStyling ++ d.body⟩) = level? d.text :=
      level?_unlines_defaultStyling d.body
    have hstyling : styling ⟨d.title, defaultStyling ++ d.body⟩ = [] :=
      if_pos (hasStyling_unlines_defaultStyling d.body)
    rw [hd, render, hlevel, hstyling, render, hd]
    simp only [heading, List.append_assoc, List.nil_append, List.cons_append]

theorem IsTidy.normalize_render (h : d.IsTidy) :
    normalize (String.ofList d.render) = String.ofList d.render := by
  unfold normalize
  rw [String.toList_ofList, h.ofSource_render, render_with_styling]

theorem exists_render_eq (d : Document) : ∃ t, d.render = t ++ '\n' :: closingMarker :=
  ⟨_, unlines_concat (by simp) closingMarker⟩

theorem trimEnd_render (d : Document) : trimEnd d.render = d.render := by
  obtain ⟨t, ht⟩ := d.exists_render_eq
  have hclosing : trimEnd ('\n' :: closingMarker) = '\n' :: closingMarker := by decide
  rw [ht, trimEnd_append_of_ne_nil t (by simp [hclosing]), hclosing]

end Document

/-- The library includes of a level, those of the levels around it first. -/
def cumulativeIncludes : Option Level → List String
  | none => []
  | some .context => ["!include <C4/C4_Context>"]
  | some .container => ["!include <C4/C4_Context>", "!include <C4/C4_Container>"]
  | some .component =>
    ["!include <C4/C4_Context>", "!include <C4/C4_Container>", "!include <C4/C4_Component>"]

theorem includes_eq (level : Option Level) :
    includes level = (cumulativeIncludes level).map String.toList := by
  rcases level with _ | _ | _ | _ <;> decide

namespace Document

variable {d : Document}

theorem lines_normalize (source : String) :
    lines (normalize source).toList = (ofSource source.toList).outline := by
  rw [normalize, String.toList_ofList, (ofSource_isTidy source.toList).lines_render]

theorem isTitled_heading (h : d.IsTidy) : d.heading = "@startuml".toList ∨
    ∃ name, d.heading = "@startuml ".toList ++ name ∧ name ≠ [] ∧ trim name = name := by
  unfold heading
  split
  · exact .inl rfl
  · rename_i t ht
    obtain ⟨hne, htrim, -⟩ := h.title t ht
    exact .inr ⟨t, rfl, hne, htrim⟩

theorem IsTidy.filter_isLibraryLine_outline (h : d.IsTidy) :
    d.outline.filter (fun l => IsLibraryLine l) = includes (level? d.text) := by
  have hcontent : ∀ l, isContent l = true → ¬ IsLibraryLine l := fun l hl => (isContent_iff.1 hl).2
  have hheading : ¬ IsLibraryLine d.heading := by
    rw [← isLibraryInclude_iff, Bool.not_eq_true]
    unfold heading
    split <;> rfl
  have hincludes : (includes (level? d.text)).filter (fun l => IsLibraryLine l) =
      includes (level? d.text) :=
    List.filter_eq_self.2 fun l hl => by
      simpa using isLibraryInclude_iff.1 (of_mem_includes hl).1
  have hstyling : d.styling.filter (fun l => IsLibraryLine l) = [] :=
    List.filter_eq_nil_iff.2 fun l hl => by simpa using hcontent l (of_mem_styling hl).1
  have hbody : d.body.filter (fun l => IsLibraryLine l) = [] :=
    List.filter_eq_nil_iff.2 fun l hl => by simpa using hcontent l (h.content l hl)
  have hclosing : ¬ IsLibraryLine closingMarker := by decide
  simp [outline, hheading, hincludes, hstyling, hbody, hclosing]

theorem IsTidy.not_isMarkerLine (h : d.IsTidy) :
    ∀ l ∈ includes (level? d.text) ++ d.styling ++ d.body, ¬ IsMarkerLine l := by
  intro l hl
  simp only [List.mem_append] at hl
  rcases hl with (hl | hl) | hl
  · exact (of_mem_includes hl).2.2.2.2
  · exact (isContent_iff.1 (of_mem_styling hl).1).1
  · exact (isContent_iff.1 (h.content l hl)).1

theorem styling_eq (d : Document) : d.styling =
    if ∃ name ∈ calls (unlines d.body), isStyling name = true then []
    else ["LAYOUT_WITH_LEGEND()".toList, "HIDE_STEREOTYPE()".toList] := by
  have hcall : hasStyling d.text = true ↔
      ∃ name ∈ calls (unlines d.body), isStyling name = true := by
    rw [hasStyling_eq]
    exact List.any_eq_true
  by_cases h : hasStyling d.text
  · rw [if_pos (hcall.1 h)]
    exact if_pos h
  · rw [if_neg (mt hcall.2 h)]
    exact if_neg h

theorem hasStyling_styling_body (d : Document) :
    hasStyling (unlines (d.styling ++ d.body)) = true := by
  by_cases hs : hasStyling d.text
  · rw [show d.styling = [] from if_pos hs]
    exact hs
  · rw [show d.styling = defaultStyling from if_neg hs]
    exact hasStyling_unlines_defaultStyling d.body

theorem exists_styling_call (d : Document) :
    ∃ name ∈ calls (unlines (d.styling ++ d.body ++ [closingMarker])), isStyling name = true := by
  obtain ⟨name, hname, hs⟩ :
      ∃ name ∈ calls (unlines (d.styling ++ d.body)), isStyling name = true :=
    List.any_eq_true.1 ((hasStyling_eq _).symm.trans d.hasStyling_styling_body)
  refine ⟨name, ?_, hs⟩
  rw [unlines_concat]
  · exact mem_callsFrom_append hname _
  · rintro h
    rw [h] at hname
    contradiction

end Document

/-- A line of a source as it stands in the body: without the blanks at its end, and with the head
of the call mended if it begins with a slip. -/
inductive KeptAs (line : List Char) : List Char → Prop
  | trimmed (h : ∀ s : Slip, ¬ s.IsWrittenIn line) : KeptAs line (trimEnd line)
  | mended (s : Slip) (h : s.IsWrittenIn line) :
    KeptAs line (trimEnd (s.indent ++ s.name ++ '(' :: s.aliasName ++ ',' :: s.rest))

theorem keptAs_repair_trimEnd (line : List Char) : KeptAs line (repair (trimEnd line)) := by
  rw [repair_trimEnd]
  cases h : Slip.read? line with
  | none =>
    rw [repair_of_read?_eq_none h]
    refine .trimmed fun s hs => ?_
    rw [Slip.read?_eq_some_iff.2 hs] at h
    contradiction
  | some s =>
    have := KeptAs.mended s (Slip.read?_eq_some_iff.1 h)
    rw [repair_of_read? h]
    simpa [Slip.head] using this

end ArchSketch.Diagram

namespace ArchSketch

open Text Diagram

theorem trimEnd_normalize (source : String) :
    trimEnd (normalize source).toList = (normalize source).toList := by
  rw [normalize, String.toList_ofList, Document.trimEnd_render]

theorem normalize_ne_empty (source : String) : normalize source ≠ "" := by
  obtain ⟨t, ht⟩ := (Document.ofSource source.toList).exists_render_eq
  simp [normalize, ht]

/-- Normalizing a second time changes nothing. -/
theorem normalize_normalize (source : String) :
    normalize (normalize source) = normalize source := by
  have h := Document.ofSource_isTidy source.toList
  unfold normalize
  rw [String.toList_ofList, h.ofSource_render, Document.render_with_styling]

/-- The parts of a normalized source stand in their places once each, whatever the source has. -/
theorem normalize_well_formed (source : String) :
    let body := (Document.ofSource source.toList).body
    let library := (cumulativeIncludes (level? (unlines body))).map String.toList
    ∃ first rest, lines (normalize source).toList = first :: library ++ rest ++ ["@enduml".toList] ∧
      (first = "@startuml".toList ∨
        ∃ name, first = "@startuml ".toList ++ name ∧ name ≠ [] ∧ trim name = name) ∧
      (∀ l ∈ library ++ rest, ¬ IsMarkerLine l) ∧
      (lines (normalize source).toList).filter (fun l => IsLibraryLine l) = library ∧
      (∃ name ∈ calls (unlines (rest ++ ["@enduml".toList])), isStyling name = true) ∧
      rest = (if ∃ name ∈ calls (unlines body), isStyling name = true then []
        else ["LAYOUT_WITH_LEGEND()".toList, "HIDE_STEREOTYPE()".toList]) ++ body := by
  intro body library
  have h := Document.ofSource_isTidy source.toList
  set d := Document.ofSource source.toList
  have hlibrary : library = includes (level? d.text) := (includes_eq _).symm
  refine ⟨d.heading, d.styling ++ body, ?_, Document.isTitled_heading h, ?_, ?_,
    d.exists_styling_call, ?_⟩
  · rw [Document.lines_normalize, hlibrary]
    simp only [Document.outline, List.append_assoc]
    rfl
  · rw [hlibrary, ← List.append_assoc]
    exact h.not_isMarkerLine
  · rw [Document.lines_normalize, hlibrary]
    exact h.filter_isLibraryLine_outline
  · rw [Document.styling_eq]

/-- The body of a normalized source is made of the lines of the source that are neither markers nor
library includes, all of them and in their order, but for blank ones at the two ends. -/
theorem normalize_keeps_content (source : String) :
    ∃ kept top body bottom,
      List.Forall₂ KeptAs
        ((lines source.toList).filter fun l => ¬ IsMarkerLine l ∧ ¬ IsLibraryLine l) kept ∧
      kept = top ++ body ++ bottom ∧ (∀ l ∈ top ++ bottom, ∀ c ∈ l, isBlank c = true) ∧
      (∀ l ∈ body.head?, ∃ c ∈ l, isBlank c = false) ∧
      (∀ l ∈ body.getLast?, ∃ c ∈ l, isBlank c = false) ∧
      lines (normalize source).toList =
        (match (lines source.toList).findSome? titleOf? with
          | none => openingMarker
          | some name => openingMarker ++ ' ' :: name) ::
        includes (level? (unlines body)) ++
        (if hasStyling (unlines body) then [] else defaultStyling) ++ body ++ [closingMarker] := by
  have hfilter : ((lines source.toList).filter fun l => ¬ IsMarkerLine l ∧ ¬ IsLibraryLine l) =
      (lines source.toList).filter isContent :=
    List.filter_congr fun l _ => by
      rw [Bool.eq_iff_iff, isContent_iff, decide_eq_true_iff]
  have hbody := Document.ofSource_eq source.toList
  obtain ⟨top, bottom, hkept, hblank, hfirst, hlast⟩ :=
    exists_eq_trimLines (((lines source.toList).filter isContent).map fun l => repair (trimEnd l))
  have hedge : ∀ l, isBlankLine l = false → ∃ c ∈ l, isBlank c = false := by
    intro l hl
    simpa [isBlankLine_iff] using (Bool.eq_false_iff.1 hl : ¬ isBlankLine l = true)
  refine ⟨_, top, _, bottom, ?_, hkept, fun l hl => isBlankLine_iff.1 (hblank l hl),
    fun l hl => hedge l (hfirst l hl), fun l hl => hedge l (hlast l hl), ?_⟩
  · rw [hfilter, List.forall₂_map_right_iff, List.forall₂_same]
    exact fun l _ => keptAs_repair_trimEnd l
  · rw [Document.lines_normalize, hbody]
    rfl

end ArchSketch
