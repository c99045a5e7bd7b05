import ArchSketch.Proofs.Diagram.NormalForm
import ArchSketch.Proofs.Reply.Marked

/-! A normal form that is sent as a reply. It begins with a start marker and ends with an end
marker, but a diagram is extracted up to any end marker, also one in a title, in a label or after a
word. What is dropped there is lost, but for the lines that normalizing puts back. -/
namespace ArchSketch.Diagram

open Text Reply

variable {l title : List Char} {ls : List (List Char)} {d : Document} {isOpen : Bool}

/-! Markers in the lines of a document. -/

theorem closesOnlyAtEnd_repair (h : ClosesOnlyAtEnd l) : ClosesOnlyAtEnd (repair l) := by
  cases hs : Slip.read? l with
  | none => rwa [repair_of_read?_eq_none hs]
  | some s =>
    obtain ⟨hsound, gap, hgap, rfl⟩ := Slip.exists_written_of_read? hs
    have hindent : '@' ∉ s.indent := fun hm => absurd (hsound.indent _ hm) (by decide)
    have hname : '@' ∉ s.name := fun hm => absurd (hsound.nameChars _ hm) (by decide)
    have halias : '@' ∉ s.aliasName := fun hm => absurd (hsound.aliasChars _ hm) (by decide)
    have hgap : '@' ∉ gap := fun hm => absurd (hgap _ hm) (by decide)
    have hwritten : '@' ∉ s.written gap := by
      simp [Slip.written, hindent, hname, halias, hgap]
    have hhead : '@' ∉ s.head := by simp [Slip.head, hindent, hname, halias]
    rw [repair_of_read? hs, closesOnlyAtEnd_append_iff hhead]
    exact (closesOnlyAtEnd_append_iff hwritten).1 h

theorem closesOnlyAtEnd_trimEnd (h : ClosesOnlyAtEnd l) : ClosesOnlyAtEnd (trimEnd l) := by
  obtain ⟨w, -, hl⟩ := exists_eq_trimEnd_append l
  exact h.mono ⟨[], w, by simp [← hl]⟩

theorem closesOnlyAtEnd_titleOf? (h : titleOf? l = some title) (hl : ClosesOnlyAtEnd l) :
    ClosesOnlyAtEnd title := by
  obtain ⟨rest, rfl, hrest, -⟩ := exists_of_titleOf? h
  obtain ⟨v, w, -, -, ht⟩ := exists_eq_append_trim rest
  exact hl.mono (List.IsInfix.trans ⟨v, w, ht.symm⟩ hrest.isInfix)

namespace Document

theorem closesOnlyAtEnd_of_mem_outline (h : ∀ l ∈ ls, ClosesOnlyAtEnd l) :
    ∀ l ∈ (ofLines ls).outline, ClosesOnlyAtEnd l := by
  have hincludes : ∀ level, ∀ l ∈ includes level, ClosesOnlyAtEnd l := by
    intro level
    rcases level with _ | _ | _ | _ <;> decide +kernel
  have hdefault : ∀ l ∈ defaultStyling, ClosesOnlyAtEnd l := by decide +kernel
  have hheading : ClosesOnlyAtEnd (ofLines ls).heading := by
    unfold heading
    split
    · decide
    · rename_i title htitle
      obtain ⟨l, hl, htitle⟩ := List.exists_of_findSome?_eq_some htitle
      exact .append_blank (by decide) (by decide) (closesOnlyAtEnd_titleOf? htitle (h l hl))
  intro l hl
  simp only [outline, List.cons_append, List.mem_cons, List.mem_append, List.not_mem_nil,
    or_false] at hl
  rcases hl with rfl | ((hl | hl) | hl) | rfl
  · exact hheading
  · exact hincludes _ l hl
  · unfold styling at hl
    split at hl
    · contradiction
    · exact hdefault l hl
  · obtain ⟨m, hm, rfl⟩ := List.mem_map.1 (trimLines_subset _ hl)
    exact closesOnlyAtEnd_repair (closesOnlyAtEnd_trimEnd (h m (List.mem_of_mem_filter hm)))
  · decide

/-! The document that is read from what is extracted. -/

theorem length_repair_trimEnd_le (l : List Char) : (repair (trimEnd l)).length ≤ l.length := by
  have htrim : (trimEnd l).length ≤ l.length := by
    obtain ⟨w, -, hl⟩ := exists_eq_trimEnd_append l
    have hlength := congrArg List.length hl
    rw [List.length_append] at hlength
    omega
  cases hs : Slip.read? (trimEnd l) with
  | none => rwa [repair_of_read?_eq_none hs]
  | some s =>
    obtain ⟨-, gap, -, hwritten⟩ := Slip.exists_written_of_read? hs
    rw [hwritten] at htrim
    rw [repair_of_read? hs]
    simp only [Slip.written, Slip.head, List.length_append, List.length_cons,
      List.length_nil] at htrim ⊢
    omega

theorem size_trimLines_le (ls : List (List Char)) : size (trimLines ls) ≤ size ls := by
  obtain ⟨top, bottom, hls, -⟩ := exists_eq_trimLines ls
  have hsize := congrArg size hls
  rw [size_append, size_append] at hsize
  omega

theorem size_body_le (d : Document) (ls : List (List Char)) :
    size (ofLines (d.heading :: ls)).body ≤ size ls := by
  rw [ofLines, List.filter_cons_of_neg (by simp [isContent_heading])]
  calc size (trimLines ((ls.filter isContent).map fun l => repair (trimEnd l)))
      ≤ size ((ls.filter isContent).map fun l => repair (trimEnd l)) := size_trimLines_le _
    _ ≤ size (ls.filter isContent) := size_map_le length_repair_trimEnd_le _
    _ ≤ size ls := size_filter_le _ _

theorem starts_heading (d : Document) : Starts d.heading := by
  have hprefix : openingMarker <+: d.heading := by
    unfold heading
    split
    · exact List.prefix_rfl
    · exact List.prefix_append _ _
  exact ⟨openingMarker, by decide, hprefix⟩

theorem exists_kept_includes (isOpen : Bool) (level : Option Level) (rest : List (List Char)) :
    ∃ unread, unread ⊆ includes level ∧
      kept isOpen (includes level ++ rest) = unread ++ kept isOpen rest := by
  have hplain : ∀ l ∈ includes level,
      ¬ Mentions openingMarker l ∧ ¬ Mentions closingMarker l := by
    rcases level with _ | _ | _ | _ <;> decide +kernel
  cases isOpen with
  | true => exact ⟨_, List.Subset.refl _, kept_append_of_open (fun l hl => (hplain l hl).2) rest⟩
  | false =>
    exact ⟨[], List.nil_subset _, kept_append_of_closed (fun l hl => (hplain l hl).1) rest⟩

/-- What is kept of the lines that are written is the document's first line, what is kept of its
body, and lines that leave nothing in a document. -/
theorem ofLines_kept_outline (hstyling : d.styling = []) :
    ofLines (kept false d.outline) =
      ofLines (d.heading :: kept (!Mentions closingMarker d.heading) d.body) := by
  obtain ⟨unread, hunread, hincludes⟩ := exists_kept_includes (!Mentions closingMarker d.heading)
    (level? d.text) (d.body ++ [closingMarker])
  obtain ⟨tail, htail, hclosing⟩ :=
    exists_kept_concat (!Mentions closingMarker d.heading) d.body
  have hkept : kept false d.outline = [d.heading] ++ unread ++
      (kept (!Mentions closingMarker d.heading) d.body ++ tail) := by
    have hsplit : d.outline =
        d.heading :: (includes (level? d.text) ++ (d.body ++ [closingMarker])) := by
      simp [outline, hstyling]
    rw [hsplit, kept_false_of_starts d.starts_heading, kept, hincludes, hclosing]
    simp
  have hfront : ∀ l ∈ unread, isContent l = false ∧ titleOf? l = none := fun l hl =>
    ⟨(of_mem_includes (hunread hl)).2.1, (of_mem_includes (hunread hl)).2.2.1⟩
  have hlast : ∀ l ∈ tail, isContent l = false ∧ titleOf? l = none := by
    intro l hl
    rw [htail l hl]
    decide
  have hend := ofLines_append_unread hlast
    ([d.heading] ++ kept (!Mentions closingMarker d.heading) d.body) []
  rw [hkept, ofLines_append_unread hfront]
  simpa using hend

theorem IsTidy.ofSource_extracted (h : d.IsTidy) (hstyling : d.styling = [])
    (hends : ∀ l ∈ d.outline, ClosesOnlyAtEnd l) :
    ofSource (joinBlocks (markedBlocks d.render)) =
      ofLines (d.heading :: kept (!Mentions closingMarker d.heading) d.body) := by
  let front := d.heading :: includes (level? d.text) ++ d.styling ++ d.body
  have houtline : d.outline = front ++ [closingMarker] := rfl
  have hmarked : markedBlocks d.render = markedBlocks (closedText front) := by
    have hrender : closedText front = d.render ++ ['\n'] :=
      (unlines_append_newline (by simp [front])).symm
    rw [hrender]
    exact (isReader_marked?.blocksFrom_append_blanks (by simp; decide) d.render).symm
  have hfront : ∀ l ∈ front, ClosesOnlyAtEnd l := by
    intro l hl
    apply hends
    rw [houtline]
    exact List.mem_append_left _ hl
  have hnewline : ∀ l ∈ kept false d.outline, '\n' ∉ l := by
    intro l hl hmem
    obtain ⟨m, hm, hsuffix⟩ := suffix_of_mem_kept hl
    exact h.newline_not_mem_outline m hm (hsuffix.subset hmem)
  rw [hmarked, (joinBlocks_closedText hfront).1, ← houtline, ofSource_eq, lines_flatMap hnewline,
    ofLines_append_nil, ofLines_kept_outline hstyling]

end Document

/-! Styling that is dropped and put back. -/

/-- The lines without the default styling at their start, unless other styling comes after it. -/
def ownLines (ls : List (List Char)) : List (List Char) :=
  let own := ls.drop defaultStyling.length
  if defaultStyling <+: ls ∧ hasStyling (unlines own) = false then own else ls

theorem ownLines_spec (ls : List (List Char)) : ownLines ls = ls ∨
    ls = defaultStyling ++ ownLines ls ∧ hasStyling (unlines (ownLines ls)) = false := by
  by_cases h : defaultStyling <+: ls ∧
      hasStyling (unlines (ls.drop defaultStyling.length)) = false
  · obtain ⟨⟨own, rfl⟩, hown⟩ := h
    right
    rw [List.drop_left] at hown
    simp [ownLines, hown]
  · left
    exact if_neg h

theorem ownLines_append (h : hasStyling (unlines ls) = false) :
    ownLines (defaultStyling ++ ls) = ls := by
  simp [ownLines, h]

theorem kept_defaultStyling (ls : List (List Char)) :
    kept true (defaultStyling ++ ls) = defaultStyling ++ kept true ls ∧
      kept false (defaultStyling ++ ls) = kept false ls := by
  have hplain : ∀ l ∈ defaultStyling,
      ¬ Mentions openingMarker l ∧ ¬ Mentions closingMarker l := by decide +kernel
  exact ⟨kept_append_of_open (fun l hl => (hplain l hl).2) ls,
    kept_append_of_closed (fun l hl => (hplain l hl).1) ls⟩

theorem kept_ownLines (h : kept isOpen ls = ls) : kept isOpen (ownLines ls) = ownLines ls := by
  rcases ownLines_spec ls with hown | ⟨hsplit, -⟩
  · rw [hown, h]
  · rw [hsplit] at h
    cases isOpen with
    | true =>
      rw [(kept_defaultStyling _).1] at h
      exact List.append_cancel_left h
    | false =>
      -- a closed reader would have dropped the styling
      have hless := size_kept_le false (ownLines ls)
      rw [← (kept_defaultStyling _).2, h, size_append] at hless
      have hpos : 0 < size defaultStyling := by decide
      omega

namespace Document

theorem hasStyling_ofLines (d : Document) (ls : List (List Char)) :
    hasStyling (ofLines (d.heading :: (defaultStyling ++ ls))).text = true := by
  let layout := "LAYOUT_WITH_LEGEND(".toList ++ [')']
  obtain ⟨later, hbody⟩ :
      ∃ later, (ofLines (d.heading :: (defaultStyling ++ ls))).body = layout :: later := by
    rw [ofLines, List.filter_cons_of_neg (by simp [isContent_heading]), List.filter_append,
      List.map_append]
    exact ⟨_, trimLines_cons (by decide) _⟩
  have hcalls : calls layout = ["LAYOUT_WITH_LEGEND".toList] := by decide
  rw [text, hbody, hasStyling_eq, calls_unlines_cons (by decide) (by decide), hcalls]
  simp [isStyling]

theorem IsTidy.trimLines_ownLines (h : d.IsTidy)
    (hstarts : ∀ l ∈ (ownLines d.body).head?, Starts l) :
    trimLines (ownLines d.body) = ownLines d.body := by
  apply trimLines_of_edges
  · intro l hl
    obtain ⟨v, rfl⟩ := (hstarts l hl).exists_sign
    simp [isBlankLine, trim, trimStart_cons_of_not_isBlank (c := '@') (by decide),
      trimEnd_cons_of_not_isBlank (c := '@') (by decide)]
  · intro l hl
    apply h.last
    rcases ownLines_spec d.body with hown | ⟨hsplit, -⟩
    · rwa [hown] at hl
    · rw [hsplit, List.getLast?_append]
      simp [Option.mem_def.1 hl]

theorem IsTidy.render_of_kept (h : d.IsTidy)
    (hkept : kept isOpen (ownLines d.body) = ownLines d.body) :
    (ofLines (d.heading :: kept isOpen d.body)).render = d.render := by
  have hlines : ∀ l ∈ d.body, isContent l = true ∧ repair (trimEnd l) = l := fun l hl =>
    ⟨h.content l hl, h.settled l hl⟩
  have hwhole (hbody : kept isOpen d.body = d.body) :
      (ofLines (d.heading :: kept isOpen d.body)).render = d.render := by
    rw [hbody, h.ofLines_heading hlines, trimLines_of_edges h.first h.last]
  rcases ownLines_spec d.body with hown | ⟨hsplit, hplain⟩
  · rw [hown] at hkept
    exact hwhole hkept
  · cases isOpen with
    | true =>
      apply hwhole
      rw [hsplit, (kept_defaultStyling _).1, hkept]
    | false =>
      have hown : kept false d.body = ownLines d.body := by
        conv => lhs; rw [hsplit]
        rw [(kept_defaultStyling _).2, hkept]
      have hsubset : ownLines d.body ⊆ d.body := by
        conv => rhs; rw [hsplit]
        exact List.subset_append_right _ _
      have hstarts := (kept_false_eq_self_iff.1 hkept).2
      have hstyling : styling ⟨d.title, ownLines d.body⟩ = defaultStyling :=
        if_neg (by simp [text, hplain])
      have hrender := render_with_styling ⟨d.title, ownLines d.body⟩
      simp only [hstyling, ← hsplit] at hrender
      rw [hown, h.ofLines_heading fun l hl => hlines l (hsubset hl),
        h.trimLines_ownLines hstarts, ← hrender]

theorem IsTidy.kept_of_render (h : d.IsTidy) (hstyling : d.styling = [])
    (hrender : (ofLines (d.heading :: kept isOpen d.body)).render = d.render) :
    kept isOpen (ownLines d.body) = ownLines d.body := by
  set e := ofLines (d.heading :: kept isOpen d.body) with he
  have htidy : e.IsTidy := by
    apply ofLines_isTidy
    intro l hl
    rcases List.mem_cons.1 hl with rfl | hl
    · exact h.newline_not_mem_heading
    · obtain ⟨m, hm, hsuffix⟩ := suffix_of_mem_kept hl
      exact fun hmem => h.oneLine m hm (hsuffix.subset hmem)
  have hbody : e.styling ++ e.body = d.body := by
    have hread := congrArg (fun t => (ofSource t).body) hrender
    simpa [htidy.ofSource_render, h.ofSource_render, hstyling] using hread
  have hsize : size e.body ≤ size (kept isOpen d.body) := size_body_le d _
  -- if what is kept has no styling, the body begins with the default lines that were put back
  by_cases hs : hasStyling e.text
  · have hnone : e.styling = [] := if_pos hs
    rw [hnone, List.nil_append] at hbody
    exact kept_ownLines (kept_eq_self (by rwa [hbody] at hsize))
  · have hdefault : e.styling = defaultStyling := if_neg hs
    rw [hdefault] at hbody
    have hown : ownLines d.body = e.body := by
      rw [← hbody]
      exact ownLines_append (by simpa [text] using hs)
    cases isOpen with
    | true =>
      have hread := hasStyling_ofLines d (kept true e.body)
      rw [← (kept_defaultStyling _).1, hbody, ← he] at hread
      exact absurd hread hs
    | false =>
      rw [← hbody, (kept_defaultStyling _).2] at hsize
      rw [hown, kept_eq_self hsize]

end Document

end ArchSketch.Diagram

namespace ArchSketch

open Text Diagram Reply

/-- A normal form that holds no fence is sent as a reply. What is extracted has the same normal form
in just these cases: end markers stand only at the ends of lines, and the line after such a line, if
it is not the last one, begins with a start marker. Lines that normalizing puts in do not count. -/
theorem normalize_resent_iff (source : String)
    (hfences : ∀ b ∈ fencedBlocks (normalize source).toList, ∀ c ∈ b, isBlank c = true) :
    let sent := normalize source
    let d := Document.ofSource sent.toList
    lines sent.toList = d.heading :: includes (level? d.text) ++ d.body ++ [closingMarker] ∧
      (normalize (extract sent).source = sent ↔
        (∀ l ∈ lines sent.toList, ClosesOnlyAtEnd l) ∧
          (d.heading :: ownLines d.body).IsChain Follows) := by
  intro sent d
  let written := Document.ofSource source.toList
  have hsent : sent.toList = written.render := by simp [sent, normalize, written]
  have hd : d = ⟨written.title, written.styling ++ written.body⟩ := by
    simp only [d]
    rw [hsent, (Document.ofSource_isTidy source.toList).ofSource_render]
  have htidy : d.IsTidy := Document.ofSource_isTidy _
  have hrender : sent.toList = d.render := by
    rw [hsent, hd, Document.render_with_styling]
  have hstyling : d.styling = [] := by
    rw [hd]
    exact if_pos written.hasStyling_styling_body
  have hlines : lines sent.toList = d.outline := by rw [hrender, htidy.lines_render]
  have houtline : d.outline =
      d.heading :: includes (level? d.text) ++ d.body ++ [closingMarker] := by
    simp [Document.outline, hstyling]
  have hextracted : (extract sent).source = String.ofList (joinBlocks (markedBlocks d.render)) := by
    rw [source_extract, source_eq_marked (joinBlocks_eq_nil_iff.2 hfences), hrender]
  have hlaw : normalize (extract sent).source = sent ↔
      (Document.ofSource (joinBlocks (markedBlocks d.render))).render = d.render := by
    rw [hextracted, normalize, String.toList_ofList, ← hrender, ← String.toList_inj,
      String.toList_ofList]
  have hchain : (d.heading :: ownLines d.body).IsChain Follows ↔
      kept (!Mentions closingMarker d.heading) (ownLines d.body) = ownLines d.body := by
    rw [← kept_true_eq_self_iff, kept, List.cons_inj_right]
  refine ⟨hlines.trans houtline, ?_⟩
  rw [hlaw, hchain, hlines]
  constructor
  · intro hsame
    have hends : ∀ l ∈ d.outline, ClosesOnlyAtEnd l := by
      intro l hl
      rw [← htidy.lines_render, ← hsame, (Document.ofSource_isTidy _).lines_render,
        Document.ofSource_eq] at hl
      exact Document.closesOnlyAtEnd_of_mem_outline (fun _ => closesOnlyAtEnd_of_mem_lines) l hl
    rw [htidy.ofSource_extracted hstyling hends] at hsame
    exact ⟨hends, htidy.kept_of_render hstyling hsame⟩
  · rintro ⟨hends, hkept⟩
    rw [htidy.ofSource_extracted hstyling hends, htidy.render_of_kept hkept]

/-- A start marker in the title, an end marker at the end of a line, and after it a line that begins
with a start marker. -/
def markedSource : String := "@startuml @startuml\na @EndUml\n@startumlb\n"

theorem normalize_resent_markedSource :
    (∀ b ∈ fencedBlocks (normalize markedSource).toList, ∀ c ∈ b, isBlank c = true) ∧
      normalize (extract (normalize markedSource)).source = normalize markedSource := by
  have hfences : fencedBlocks (normalize markedSource).toList = [] := by decide +kernel
  have hblank : ∀ b ∈ fencedBlocks (normalize markedSource).toList, ∀ c ∈ b, isBlank c = true := by
    simp [hfences]
  refine ⟨hblank, (normalize_resent_iff markedSource hblank).2.2 ⟨?_, ?_⟩⟩
  · decide +kernel
  · decide +kernel

def labelSource : String := "Person(a, \"@enduml\")"

theorem not_normalize_resent_labelSource :
    ¬ ∀ source, fencedBlocks (normalize source).toList = [] →
      normalize (extract (normalize source)).source = normalize source := by
  intro h
  have hsame := h labelSource (by decide +kernel)
  revert hsame
  decide +kernel

end ArchSketch
