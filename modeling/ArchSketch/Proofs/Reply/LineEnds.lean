import ArchSketch.Proofs.Diagram.NormalForm
import ArchSketch.Proofs.Reply.Explanation
import ArchSketch.Proofs.Text.LineEnds

/-! Replies with line ends of two characters. Every pattern that a reply is taken apart with fits at
the same places whichever line ends the reply has. The explanation keeps the line ends of the reply;
in the diagram they make no difference once it is normalized. -/
namespace ArchSketch.Reply

open Text Diagram

variable {a b r s t u : List Char} {words : List (List Char)} {atLineStart : Bool}

theorem not_mem_of_eq_append {c : Char} (h : c ∉ t) (ht : t = a ++ u) : c ∉ u := fun hu =>
  h (ht ▸ List.mem_append_right a hu)

/-! Fences and pairs of markers. -/

theorem afterTag?_wideEnds (t : List Char) :
    afterTag? (wideEnds t) = (afterTag? t).map wideEnds := by
  have htags : ∀ tag ∈ tags, '\r' ∉ tag ∧ '\n' ∉ tag := by decide
  rw [afterTag?, afterWord?_wideEnds (by decide) (by decide), afterTag?]
  cases afterWord? fence t with
  | none => rfl
  | some r =>
    rw [Option.map_some, Option.bind_some, Option.bind_some,
      dropWhile_wideEnds (by decide) (by decide), afterAny?_wideEnds htags]

theorem return_not_mem_of_afterTag? (ht : '\r' ∉ t) (h : afterTag? t = some u) : '\r' ∉ u := by
  obtain ⟨gap, tag, hsplit, -⟩ := exists_of_afterTag? h
  exact not_mem_of_eq_append ht hsplit

theorem endsTag_wideEnds (ht : '\r' ∉ t) : endsTag (wideEnds t) = endsTag t := by
  cases t with
  | nil => rfl
  | cons c t =>
    by_cases hc : c = '\n'
    · subst hc
      rfl
    · have hreturn : c ≠ '\r' := Ne.symm (List.ne_of_not_mem_cons ht)
      simp [wideEnds_cons hc, endsTag, hreturn]

theorem tail?_dropWhile_wideEnds (t : List Char) :
    ((wideEnds t).dropWhile (· != '\n')).tail? =
      (t.dropWhile (· != '\n')).tail?.map wideEnds := by
  induction t with
  | nil => rfl
  | cons c t ih =>
    by_cases hc : c = '\n'
    · simp [hc]
    · simpa [wideEnds_cons hc, hc] using ih

theorem afterInfo?_cons_of_ne {c : Char} (hn : c ≠ '\n') (hr : c ≠ '\r') (t : List Char) :
    afterInfo? (c :: t) =
      if isInlineBlank c then (t.dropWhile (· != '\n')).tail? else none := by
  cases hline : t.dropWhile (· != '\n') <;> simp [afterInfo?, hr, hline]

theorem afterInfo?_wideEnds (ht : '\r' ∉ t) :
    afterInfo? (wideEnds t) = (afterInfo? t).map wideEnds := by
  cases t with
  | nil => rfl
  | cons c t =>
    by_cases hc : c = '\n'
    · subst hc
      rfl
    · have hreturn : c ≠ '\r' := Ne.symm (List.ne_of_not_mem_cons ht)
      rw [wideEnds_cons hc, afterInfo?_cons_of_ne hc hreturn, afterInfo?_cons_of_ne hc hreturn,
        tail?_dropWhile_wideEnds]
      split <;> rfl

def wideBlock (block : Block) : Block := (wideEnds block.1, wideEnds block.2)

theorem widens_fence : Pattern.Widens (fun _ t => afterWord? fence t) wideEnds where
  eq_map _ _ _ := afterWord?_wideEnds (by decide) (by decide) _
  newline _ := rfl

theorem widens_closingMarker : Pattern.Widens (fun _ t => afterWord? closingMarker t) wideEnds where
  eq_map _ _ _ := afterWord?_wideEnds (by decide) (by decide) _
  newline _ := rfl

theorem widens_fenced? : Pattern.Widens (fun _ => fenced?) wideBlock where
  eq_map _ {t} ht := by
    rw [fenced?, afterTag?_wideEnds, fenced?]
    cases htag : afterTag? t with
    | none => rfl
    | some u =>
      have hu := return_not_mem_of_afterTag? ht htag
      rw [Option.map_some, Option.bind_some, Option.bind_some, afterInfo?_wideEnds hu]
      cases hinfo : afterInfo? u with
      | none => rfl
      | some v =>
        obtain ⟨info, lineEnd, hsplit, -⟩ := exists_of_afterInfo? hinfo
        exact widens_fence.find?_wideEnds (not_mem_of_eq_append hu hsplit)
  newline _ := rfl

theorem widens_marked? : Pattern.Widens (fun _ => marked?) wideBlock where
  eq_map _ {t} ht := by
    rw [marked?, afterWord?_wideEnds (by decide) (by decide), marked?]
    cases hopening : afterWord? openingMarker t with
    | none => rfl
    | some v =>
      obtain ⟨w, rfl, -⟩ := afterWord?_eq_some_iff.1 hopening
      rw [Option.map_some, Option.bind_some, Option.bind_some,
        widens_closingMarker.find?_wideEnds (not_mem_of_eq_append ht rfl)]
      cases hfind : find? (fun _ t => afterWord? closingMarker t) true v with
      | none => rfl
      | some found =>
        obtain ⟨body, rest⟩ := found
        obtain ⟨closing, rfl, -⟩ := find?_closingMarker_eq_some_iff.1 hfind
        -- the block is the text up to the rest, whatever its length
        have htake (x y : List Char) : (x ++ y).take ((x ++ y).length - y.length) = x := by simp
        have hwide := htake (wideEnds (w ++ (body ++ closing))) (wideEnds rest)
        have hplain := htake (w ++ (body ++ closing)) rest
        rw [← wideEnds_append] at hwide
        simp only [List.append_assoc] at hwide hplain ⊢
        simp only [Option.map_some, hwide, hplain, wideBlock]
  newline _ := rfl

theorem IsReader.blocksFrom_wideEnds {block? : List Char → Option Block}
    {Written : List Char → List Char → Prop} (h : IsReader block? Written)
    (hwidens : Pattern.Widens (fun _ => block?) wideBlock) (ht : '\r' ∉ t) :
    blocksFrom block? 0 (wideEnds t) = (blocksFrom block? 0 t).map wideEnds := by
  induction hn : t.length using Nat.strong_induction_on generalizing t with
  | _ n ih =>
    have hmap : block? (wideEnds t) = (block? t).map wideBlock :=
      hwidens.eq_map true ht
    cases hblock : block? t with
    | some block =>
      obtain ⟨b, s⟩ := block
      obtain ⟨w, hw, rfl⟩ := h.eq_some_iff.1 hblock
      have hne : w ≠ [] := by
        obtain ⟨c, v, rfl, -⟩ := h.first hw
        simp
      have hpos := List.length_pos_iff.2 hne
      rw [wideEnds_append, hblock] at hmap
      rw [wideEnds_append, blocksFrom_block (by simpa using hne) hmap, blocksFrom_block hne hblock,
        List.map_cons, ih s.length (by simp at hn; omega) (not_mem_of_eq_append ht rfl) rfl]
    | none =>
      cases t with
      | nil => rfl
      | cons c t =>
        have htail : blocksFrom block? 0 (wideEnds t) = (blocksFrom block? 0 t).map wideEnds :=
          ih t.length (by simp at hn; omega) (List.not_mem_of_not_mem_cons ht) rfl
        rw [hblock] at hmap
        by_cases hc : c = '\n'
        · subst hc
          have hfeed : block? ('\n' :: wideEnds t) = none := hwidens.newline _
          rw [wideEnds_newline_cons] at hmap ⊢
          simp [blocksFrom, hmap, hfeed, hblock, htail]
        · rw [wideEnds_cons hc] at hmap ⊢
          simp [blocksFrom, hmap, hblock, htail]

/-! Labels and the start of the diagram. -/

theorem label?_wideEnds (hwords : ∀ word ∈ words, '\r' ∉ word ∧ '\n' ∉ word) (t : List Char) :
    label? words atLineStart (wideEnds t) = (label? words atLineStart t).map wideEnds := by
  cases atLineStart with
  | false => rfl
  | true =>
    simp only [label?, ↓reduceIte]
    rw [dropWhile_wideEnds (by decide) (by decide), afterAny?_wideEnds hwords]
    cases afterAny? words (t.dropWhile isDecoration) with
    | none => rfl
    | some u =>
      rw [Option.map_some, Option.map_some, Option.map_some,
        dropWhile_wideEnds (by decide) (by decide)]
      cases u.dropWhile isInlineBlank with
      | nil => rfl
      | cons c v =>
        by_cases hcolon : c = ':'
        · simp [hcolon, wideEnds_cons]
        · by_cases hc : c = '\n'
          · simp [hc]
          · simp [wideEnds_cons hc, hcolon]

theorem widens_explanationLabel : explanationLabel.Widens wideEnds where
  eq_map _ {t} _ := by
    rw [explanationLabel, label?_wideEnds (by decide), explanationLabel, Option.map_map,
      Option.map_map]
    congr 1
    funext u
    exact dropWhile_wideEnds (by decide) (by decide) u
  newline _ := rfl

theorem widens_diagramStart : diagramStart.Widens id where
  eq_map _ {t} ht := by
    have hfence : (afterWord? fence ((wideEnds t).dropWhile isInlineBlank)).isSome =
        (afterWord? fence (t.dropWhile isInlineBlank)).isSome := by
      rw [dropWhile_wideEnds (by decide) (by decide), afterWord?_wideEnds (by decide) (by decide),
        Option.isSome_map]
    have htag : (afterTag? (wideEnds t)).any endsTag = (afterTag? t).any endsTag := by
      rw [afterTag?_wideEnds]
      cases h : afterTag? t with
      | none => rfl
      | some u => exact endsTag_wideEnds (return_not_mem_of_afterTag? ht h)
    have hmarker : (afterWord? openingMarker (wideEnds t)).isSome =
        (afterWord? openingMarker t).isSome := by
      rw [afterWord?_wideEnds (by decide) (by decide), Option.isSome_map]
    rw [diagramStart, hfence, htag, hmarker, Option.map_id]
    rfl
  newline _ := rfl

theorem widens_sectionEnd : sectionEnd.Widens id where
  eq_map atLineStart {t} ht := by
    have hlabel : (diagramLabel atLineStart (wideEnds t)).map (fun _ => ()) =
        (diagramLabel atLineStart t).map fun _ => () := by
      rw [diagramLabel, label?_wideEnds (by decide), Option.map_map]
    rw [sectionEnd, hlabel, widens_diagramStart.eq_map atLineStart ht, Option.map_id]
    rfl
  newline _ := rfl

theorem labelled_wideEnds (ht : '\r' ∉ t) : labelled (wideEnds t) = wideEnds (labelled t) := by
  rw [labelled, widens_explanationLabel.find?_wideEnds ht, labelled]
  cases hfind : find? explanationLabel true t with
  | none => rfl
  | some found =>
    obtain ⟨before, rest⟩ := found
    obtain ⟨r, hsplit, hfits, -⟩ := find?_eq_some_iff.1 hfind
    obtain ⟨label, rfl, -⟩ := exists_of_explanationLabel hfits
    have hrest : '\r' ∉ rest := not_mem_of_eq_append (not_mem_of_eq_append ht hsplit) rfl
    have hlength := length_wideEnds_lt_iff (textBefore_isPrefix diagramStart t) ⟨_, hsplit.symm⟩
    simp only [Option.map_some, widens_diagramStart.textBefore_wideEnds ht, hlength,
      widens_sectionEnd.textBefore_wideEnds hrest, trim_wideEnds]
    split <;> rfl

theorem explanation_wideEnds (ht : '\r' ∉ t) :
    explanation (wideEnds t) = wideEnds (explanation t) := by
  have hleading : leading (wideEnds t) = wideEnds (leading t) := by
    rw [leading, widens_diagramStart.textBefore_wideEnds ht, trim_wideEnds, leading]
  rw [explanation, labelled_wideEnds ht, hleading, explanation]
  by_cases h : labelled t = []
  · simp [h]
  · simp [h]

/-! The diagram. -/

theorem joinBlocks_map_wideEnds_eq_nil_iff (blocks : List (List Char)) :
    joinBlocks (blocks.map wideEnds) = [] ↔ joinBlocks blocks = [] := by
  induction blocks with
  | nil => rfl
  | cons b blocks ih =>
    rw [List.map_cons, joinBlocks_cons, joinBlocks_cons, any_wideEnds (by decide)]
    split
    · simp
    · exact ih

theorem map_trimEnd_lines_joinBlocks (blocks : List (List Char)) :
    (lines (joinBlocks (blocks.map wideEnds))).map trimEnd =
      (lines (joinBlocks blocks)).map trimEnd := by
  induction blocks with
  | nil => rfl
  | cons b blocks ih =>
    rw [List.map_cons, joinBlocks_cons, joinBlocks_cons, any_wideEnds (by decide)]
    split
    · rw [List.append_assoc, List.append_assoc, List.singleton_append, List.singleton_append,
        lines_append, lines_append, List.map_append, List.map_append, ih, trim_wideEnds,
        map_trimEnd_lines_wideEnds]
    · exact ih

theorem exists_blocks_wideEnds (ht : '\r' ∉ t) : ∃ blocks, source t = joinBlocks blocks ∧
    source (wideEnds t) = joinBlocks (blocks.map wideEnds) := by
  have hfenced : fencedBlocks (wideEnds t) = (fencedBlocks t).map wideEnds :=
    isReader_fenced?.blocksFrom_wideEnds widens_fenced? ht
  have hmarked : markedBlocks (wideEnds t) = (markedBlocks t).map wideEnds :=
    isReader_marked?.blocksFrom_wideEnds widens_marked? ht
  have hnil := joinBlocks_map_wideEnds_eq_nil_iff (fencedBlocks t)
  by_cases h : joinBlocks (fencedBlocks t) = []
  · refine ⟨markedBlocks t, source_eq_marked h, ?_⟩
    rw [source_eq_marked (by rwa [hfenced, hnil]), hmarked]
  · refine ⟨fencedBlocks t, source_eq_fenced h, ?_⟩
    rw [source_eq_fenced (by rwa [hfenced, Ne, hnil]), hfenced]

end ArchSketch.Reply

namespace ArchSketch

open Text Reply

def withWideEnds (text : String) : String := String.ofList (wideEnds text.toList)

/-- A reply with line ends of two characters has the same diagram, once it is normalized, as the
reply with single line feeds, and the same explanation up to its line ends. -/
theorem extract_wideEnds {reply : String} (h : '\r' ∉ reply.toList) :
    (extract (withWideEnds reply)).hasDiagram = (extract reply).hasDiagram ∧
      normalize (extract (withWideEnds reply)).source = normalize (extract reply).source ∧
      (extract (withWideEnds reply)).explanation = withWideEnds (extract reply).explanation := by
  obtain ⟨t, rfl⟩ : ∃ t, reply = String.ofList t := ⟨reply.toList, by simp⟩
  rw [String.toList_ofList] at h
  have hreply : withWideEnds (String.ofList t) = String.ofList (wideEnds t) := by
    simp [withWideEnds]
  rw [hreply]
  obtain ⟨blocks, hsource, hwide⟩ := exists_blocks_wideEnds h
  have hnil : source (wideEnds t) = [] ↔ source t = [] := by
    rw [hsource, hwide, joinBlocks_map_wideEnds_eq_nil_iff]
  refine ⟨?_, ?_, ?_⟩
  · rw [Bool.eq_iff_iff, hasDiagram_extract, hasDiagram_extract]
    simp [source_extract, hnil]
  · have hlines : Diagram.Document.ofSource (source (wideEnds t)) =
        Diagram.Document.ofSource (source t) := by
      rw [hsource, hwide]
      exact Diagram.Document.ofSource_congr (map_trimEnd_lines_joinBlocks blocks)
    simp [source_extract, normalize, hlines]
  · by_cases hempty : source t = []
    · rw [extract_of_source_eq_nil hempty, extract_of_source_eq_nil (hnil.2 hempty),
        withWideEnds, String.toList_ofList, trim_wideEnds]
    · rw [extract_of_source_ne_nil hempty, extract_of_source_ne_nil (mt hnil.1 hempty),
        withWideEnds, String.toList_ofList, explanation_wideEnds h]

def labelledReply : String :=
  "EXPLANATION:\nA shop.\nIt sells.\n\nDIAGRAM:\n" ++
    "```puml title=x\nPerson(a, \"A\")\n\nSystem/b, \"B\")\n```\n"

theorem extract_wideEnds_labelledReply :
    '\r' ∉ labelledReply.toList ∧ (extract (withWideEnds labelledReply)).hasDiagram = true ∧
      normalize (extract (withWideEnds labelledReply)).source =
        "@startuml\n!include <C4/C4_Context>\nLAYOUT_WITH_LEGEND()\nHIDE_STEREOTYPE()\n" ++
          "Person(a, \"A\")\n\nSystem(b, \"B\")\n@enduml" ∧
      (extract (withWideEnds labelledReply)).explanation = "A shop.\r\nIt sells." := by
  have hreturn : '\r' ∉ labelledReply.toList := by decide +kernel
  obtain ⟨hdiagram, hsource, hexplanation⟩ := extract_wideEnds hreturn
  refine ⟨hreturn, hdiagram.trans ?_, hsource.trans ?_, hexplanation.trans ?_⟩ <;> decide +kernel

end ArchSketch
