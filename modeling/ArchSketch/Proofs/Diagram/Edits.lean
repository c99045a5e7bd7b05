import ArchSketch.Proofs.Diagram.Document

/-! Changes to a source that leave no trace. Markers without a name and includes of a level's
library may stand between any lines, blanks at the end of any line, and blank lines around all of
them; whatever is put in, the same document is read. -/
namespace ArchSketch.Diagram

open Text

variable {line blanks word rest marker : List Char} {ls ls' : List (List Char)}

/-- A line that has no part in a document: a closing marker whatever follows it, an opening marker
without a name, or an include of a level's library. -/
inductive IsFrameLine : List Char → Prop
  | closing (blanks word rest : List Char) (hblanks : ∀ c ∈ blanks, isBlank c = true)
      (hword : word.map fold = closingMarker) (hrest : atWordEnd rest = true) :
      IsFrameLine (blanks ++ word ++ rest)
  | opening (blanks word rest : List Char) (hblanks : ∀ c ∈ blanks, isBlank c = true)
      (hword : word.map fold = openingMarker) (hrest : ∀ c ∈ rest, isBlank c = true) :
      IsFrameLine (blanks ++ word ++ rest)
  | library (line : List Char) (h : IsLibraryLine line) : IsFrameLine line

/-- One change to the lines of a source. -/
inductive Edit : List (List Char) → List (List Char) → Prop
  | insert (before after : List (List Char)) (line : List Char) (h : IsFrameLine line)
      (hline : '\n' ∉ line) : Edit (before ++ after) (before ++ line :: after)
  | pad (before after : List (List Char)) (line blanks : List Char)
      (hblanks : ∀ c ∈ blanks, isBlank c = true) (hline : '\n' ∉ blanks) :
      Edit (before ++ line :: after) (before ++ (line ++ blanks) :: after)
  | top (ls : List (List Char)) (blanks : List Char) (hblanks : ∀ c ∈ blanks, isBlank c = true)
      (hline : '\n' ∉ blanks) : Edit ls (blanks :: ls)
  | bottom (ls : List (List Char)) (blanks : List Char) (hblanks : ∀ c ∈ blanks, isBlank c = true)
      (hline : '\n' ∉ blanks) : Edit ls (ls ++ [blanks])

/-! Lines without a part. -/

theorem afterMarker?_eq_none {w : List Char} (hblanks : ∀ c ∈ blanks, isBlank c = true)
    (hword : word.map fold = w) (hw : NoBlanks w) (hne : w ≠ [])
    (hmarker : ¬ marker <+: w ∧ ¬ w <+: marker) (rest : List Char) :
    afterMarker? marker (blanks ++ word ++ rest) = none := by
  have hstart : trimStart (blanks ++ word ++ rest) = word ++ rest := by
    rw [List.append_assoc, trimStart_append_blanks _ hblanks]
    refine trimStart_append_of_noBlanks ?_ (noBlanks_of_map_fold (hword.symm ▸ hw)) rest
    rintro rfl
    exact hne hword.symm
  have hnone : afterWord? marker (word ++ rest) = none := by
    rw [Option.eq_none_iff_forall_not_mem]
    intro r hr
    obtain ⟨p, hp, hpm⟩ := afterWord?_eq_some_iff.1 hr
    -- two words that begin the same text begin alike
    have hprefix : p <+: word ++ rest := ⟨r, hp.symm⟩
    rcases List.prefix_or_prefix_of_prefix hprefix (List.prefix_append word rest) with h | h
    · exact hmarker.1 (hpm ▸ hword ▸ h.map fold)
    · exact hmarker.2 (hpm ▸ hword ▸ h.map fold)
  rw [afterMarker?, hstart, hnone]
  rfl

theorem atWordEnd_of_blanks (h : ∀ c ∈ rest, isBlank c = true) : atWordEnd rest = true := by
  cases rest with
  | nil => rfl
  | cons c rest => simp [atWordEnd, not_isWord_of_isBlank (h c (by simp))]

theorem titleOf?_of_afterMarker?_eq_none (h : afterMarker? openingMarker line = none) :
    titleOf? line = none := by
  rw [titleOf?, h]
  rfl

theorem IsFrameLine.isContent (h : IsFrameLine line) : isContent line = false := by
  rw [← Bool.not_eq_true, isContent_iff, not_and_or, not_not, not_not]
  cases h with
  | closing blanks word rest hblanks hword hrest =>
    exact .inl ⟨blanks, word, rest, rfl, hblanks, by simp [hword], hrest⟩
  | opening blanks word rest hblanks hword hrest =>
    exact .inl ⟨blanks, word, rest, rfl, hblanks, by simp [hword], atWordEnd_of_blanks hrest⟩
  | library line h => exact .inr h

theorem IsFrameLine.titleOf? (h : IsFrameLine line) : titleOf? line = none := by
  cases h with
  | closing blanks word rest hblanks hword hrest =>
    exact titleOf?_of_afterMarker?_eq_none
      (afterMarker?_eq_none hblanks hword noBlanks_closingMarker (by decide) (by decide) rest)
  | opening blanks word rest hblanks hword hrest =>
    have hmarker : afterMarker? openingMarker (blanks ++ word ++ rest) = some rest :=
      (afterMarker?_eq_some_iff noBlanks_openingMarker (by decide)).2
        ⟨blanks, word, rfl, hblanks, hword, atWordEnd_of_blanks hrest⟩
    rw [Diagram.titleOf?, hmarker, Option.map_some, trim_eq_nil_iff.2 hrest]
    rfl
  | library line h =>
    obtain ⟨blanks, command, gap, path, name, extension, bracket, space, comment, rfl, hblanks,
      hcommand, -⟩ := h
    have hcommands : ∀ w ∈ ["!include".toList, "!includeurl".toList], NoBlanks w ∧ w ≠ [] ∧
        ¬ openingMarker <+: w ∧ ¬ w <+: openingMarker := by decide
    obtain ⟨hblank, hne, hopening⟩ := hcommands _ hcommand
    refine titleOf?_of_afterMarker?_eq_none ?_
    simp only [List.append_assoc]
    rw [← List.append_assoc]
    exact afterMarker?_eq_none hblanks rfl hblank hne hopening _

/-! Documents. -/

theorem trimEnd_of_blanks (h : ∀ c ∈ blanks, isBlank c = true) : trimEnd blanks = [] :=
  trimEnd_eq_nil_iff.2 h

namespace Document

theorem ofLines_congr (h : ls'.map trimEnd = ls.map trimEnd) : ofLines ls' = ofLines ls := by
  rw [← ofLines_map_trimEnd, h, ofLines_map_trimEnd]

theorem ofLines_nil_cons (ls : List (List Char)) : ofLines ([] :: ls) = ofLines ls := by
  have hcontent : isContent [] = true := by decide
  have htitle : titleOf? [] = none := by decide
  rw [ofLines, List.findSome?_cons, htitle, List.filter_cons_of_pos hcontent, ofLines]
  rfl

theorem ofLines_edit (h : Edit ls ls') : ofLines ls' = ofLines ls := by
  cases h with
  | insert before after line h hline =>
    have hunread : ∀ l ∈ [line], isContent l = false ∧ titleOf? l = none := by
      simpa using ⟨h.isContent, h.titleOf?⟩
    have hdropped := ofLines_append_unread hunread before after
    rwa [List.append_assoc] at hdropped
  | pad before after line blanks hblanks hline =>
    exact ofLines_congr (by simp [trimEnd_append_blanks line hblanks])
  | top ls blanks hblanks hline =>
    calc ofLines (blanks :: ls) = ofLines ([] :: ls) :=
          ofLines_congr (by simp [trimEnd_of_blanks hblanks])
      _ = ofLines ls := ofLines_nil_cons ls
  | bottom ls blanks hblanks hline =>
    calc ofLines (ls ++ [blanks]) = ofLines (ls ++ [[]]) :=
          ofLines_congr (by simp [trimEnd_of_blanks hblanks])
      _ = ofLines ls := ofLines_append_nil ls

end Document

/-! Texts. -/

theorem Edit.newline_not_mem (h : Edit ls ls') (hls : ls ≠ [] ∧ ∀ l ∈ ls, '\n' ∉ l) :
    ls' ≠ [] ∧ ∀ l ∈ ls', '\n' ∉ l := by
  obtain ⟨hne, hlines⟩ := hls
  cases h with
  | insert before after line h hline =>
    refine ⟨by simp, fun l hl => ?_⟩
    rw [List.mem_append, List.mem_cons] at hl
    rcases hl with hl | rfl | hl
    · exact hlines l (List.mem_append_left _ hl)
    · exact hline
    · exact hlines l (List.mem_append_right _ hl)
  | pad before after line blanks hblanks hline =>
    refine ⟨by simp, fun l hl => ?_⟩
    rw [List.mem_append, List.mem_cons] at hl
    rcases hl with hl | rfl | hl
    · exact hlines l (List.mem_append_left _ hl)
    · rw [List.mem_append, not_or]
      exact ⟨hlines line (by simp), hline⟩
    · exact hlines l (List.mem_append_right _ (List.mem_cons_of_mem _ hl))
  | top ls blanks hblanks hline => exact ⟨by simp, List.forall_mem_cons.2 ⟨hline, hlines⟩⟩
  | bottom ls blanks hblanks hline =>
    exact ⟨by simp, List.forall_mem_append.2 ⟨hlines, by simpa using hline⟩⟩

theorem lines_edits {source : List Char} (h : Relation.ReflTransGen Edit (lines source) ls) :
    lines (unlines ls) = ls := by
  have hlines : ls ≠ [] ∧ ∀ l ∈ ls, '\n' ∉ l := by
    induction h with
    | refl => exact ⟨lines_ne_nil source, fun l => newline_not_mem_of_mem_lines⟩
    | tail _ hstep ih => exact hstep.newline_not_mem ih
  exact lines_unlines hlines.1 hlines.2

theorem Document.ofSource_edits {source : List Char}
    (h : Relation.ReflTransGen Edit (lines source) ls) :
    ofSource (unlines ls) = ofSource source := by
  rw [ofSource_eq, ofSource_eq, lines_edits h]
  induction h with
  | refl => rfl
  | tail _ hstep ih => exact (ofLines_edit hstep).trans ih

end ArchSketch.Diagram

namespace ArchSketch

open Text Diagram

/-- Whichever markers, includes and blanks are put into a source, and in whatever order, it comes to
the same text. -/
theorem normalize_edited {source : String} {ls : List (List Char)}
    (h : Relation.ReflTransGen Edit (lines source.toList) ls) :
    normalize (String.ofList (unlines ls)) = normalize source := by
  rw [normalize, normalize, String.toList_ofList, Document.ofSource_edits h]

def framedShop : List (List Char) :=
  ["\t".toList, " @ENDUML x".toList, "!INCLUDE <C4/C4_Component.puml>".toList,
    "Person(a, \"A\") \r".toList, "@StartUML ".toList, []]

theorem normalize_framedShop :
    Relation.ReflTransGen Edit (lines "Person(a, \"A\")".toList) framedShop ∧
      normalize (String.ofList (unlines framedShop)) = normalize "Person(a, \"A\")" := by
  let shop := "Person(a, \"A\")".toList
  let closing := " @ENDUML x".toList
  let library := "!INCLUDE <C4/C4_Component.puml>".toList
  let opening := "@StartUML ".toList
  let padded := "Person(a, \"A\") \r".toList
  have hlines : lines shop = [shop] := lines_of_not_mem (by decide)
  have hlibrary : Edit [shop] [library, shop] :=
    .insert [] [shop] library (.library library (by decide +kernel)) (by decide)
  have hclosing : Edit [library, shop] [closing, library, shop] := by
    refine .insert [] [library, shop] closing ?_ (by decide)
    exact .closing [' '] "@ENDUML".toList " x".toList (List.all_eq_true.1 rfl) (by decide) rfl
  have hpadded : Edit [closing, library, shop] [closing, library, padded] :=
    .pad [closing, library] [] shop [' ', '\r'] (List.all_eq_true.1 rfl) (by decide)
  have hopening : Edit [closing, library, padded] [closing, library, padded, opening] := by
    refine .insert [closing, library, padded] [] opening ?_ (by decide)
    exact .opening [] "@StartUML".toList [' '] (by simp) (by decide) (List.all_eq_true.1 rfl)
  have htop : Edit [closing, library, padded, opening]
      (['\t'] :: [closing, library, padded, opening]) :=
    .top _ ['\t'] (List.all_eq_true.1 rfl) (by decide)
  have hbottom : Edit (['\t'] :: [closing, library, padded, opening]) framedShop :=
    .bottom _ [] (by simp) (by simp)
  have h : Relation.ReflTransGen Edit (lines shop) framedShop := by
    rw [hlines]
    exact (((((Relation.ReflTransGen.single hlibrary).tail hclosing).tail hpadded).tail
      hopening).tail htop).tail hbottom
  exact ⟨h, normalize_edited h⟩

end ArchSketch
