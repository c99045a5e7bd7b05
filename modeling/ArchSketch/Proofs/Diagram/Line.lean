import ArchSketch.Diagram.Line
import ArchSketch.Proofs.Text.Folding

/-! What makes a line a marker or an include of a level's library. Blanks at the end of a line have
no say in it, so a line may be told apart before or after it is trimmed. -/
namespace ArchSketch.Diagram

open Text

variable {marker line t : List Char}

/-- Blanks, a marker in any letter case, and then no further character of a word. -/
def IsMarkerLine (line : List Char) : Prop :=
  ∃ blanks word rest, line = blanks ++ word ++ rest ∧ (∀ c ∈ blanks, isBlank c = true) ∧
    word.map fold ∈ [openingMarker, closingMarker] ∧ atWordEnd rest = true

/-- Blanks, the include command, blanks, a path that ends in the name of a level's library with or
without extension and closing bracket, blanks, and then nothing but a comment. -/
def IsLibraryLine (line : List Char) : Prop :=
  ∃ blanks command gap path name extension bracket space comment,
    line = blanks ++ command ++ gap ++ path ++ name ++ extension ++ bracket ++ space ++ comment ∧
    (∀ c ∈ blanks, isBlank c = true) ∧
    command.map fold ∈ ["!include".toList, "!includeurl".toList] ∧
    gap ≠ [] ∧ (∀ c ∈ gap, isBlank c = true) ∧ (∀ c ∈ path, isBlank c = false) ∧
    name.map fold ∈ libraryNames ∧ extension.map fold ∈ [[], ".puml".toList] ∧
    bracket.map fold ∈ [[], ['>']] ∧ (∀ c ∈ space, isBlank c = true) ∧
    (comment = [] ∨ comment.head? = some '\'')

theorem noBlanks_openingMarker : NoBlanks openingMarker := by decide

theorem noBlanks_closingMarker : NoBlanks closingMarker := by decide

theorem noBlanks_libraryNames : ∀ name ∈ libraryNames, NoBlanks name := by decide

theorem noBlanks_of_map_fold {p : List Char} (h : NoBlanks (p.map fold)) : NoBlanks p := by
  intro c hc
  cases hb : isBlank c with
  | false => rfl
  | true => simpa [fold_of_isBlank hb, hb] using h (fold c) (List.mem_map_of_mem hc)

theorem atWordEnd_trimEnd (t : List Char) : atWordEnd (trimEnd t) = atWordEnd t := by
  cases t with
  | nil => rfl
  | cons c t =>
    rw [trimEnd_cons]
    split
    · rename_i h
      rw [Bool.and_eq_true] at h
      simp [atWordEnd, not_isWord_of_isBlank h.2]
    · rfl

theorem afterMarker?_trimEnd (h : NoBlanks marker) :
    afterMarker? marker (trimEnd line) = (afterMarker? marker line).map trimEnd := by
  rw [afterMarker?, trimStart_trimEnd, afterWord?_trimEnd h, afterMarker?]
  cases afterWord? marker (trimStart line) with
  | none => rfl
  | some rest => cases hr : atWordEnd rest <;> simp [Option.filter, atWordEnd_trimEnd, hr]

theorem afterMarker?_eq_some_iff {rest : List Char} (h : NoBlanks marker) (hne : marker ≠ []) :
    afterMarker? marker line = some rest ↔ ∃ blanks word, line = blanks ++ word ++ rest ∧
      (∀ c ∈ blanks, isBlank c = true) ∧ word.map fold = marker ∧ atWordEnd rest = true := by
  rw [afterMarker?, Option.filter_eq_some_iff, afterWord?_eq_some_iff]
  constructor
  · rintro ⟨⟨word, ht, hw⟩, hr⟩
    obtain ⟨blanks, hb, hl⟩ := exists_eq_append_trimStart line
    exact ⟨blanks, word, by rw [List.append_assoc, ← ht, ← hl], hb, hw, hr⟩
  · rintro ⟨blanks, word, rfl, hb, rfl, hr⟩
    refine ⟨⟨word, ?_, rfl⟩, hr⟩
    rw [List.append_assoc, trimStart_append_blanks _ hb]
    have hword : word ≠ [] := by
      rintro rfl
      exact hne rfl
    exact trimStart_append_of_noBlanks hword (noBlanks_of_map_fold h) rest

theorem isMarkerLine_iff : IsMarkerLine line ↔
    (afterMarker? openingMarker line).isSome ∨ (afterMarker? closingMarker line).isSome := by
  simp only [Option.isSome_iff_exists,
    afterMarker?_eq_some_iff noBlanks_openingMarker (by decide),
    afterMarker?_eq_some_iff noBlanks_closingMarker (by decide), IsMarkerLine]
  grind

theorem endsInclude_trimEnd (t : List Char) : endsInclude (trimEnd t) = endsInclude t := by
  unfold endsInclude
  simp only [getD_afterWord?_trimEnd (show NoBlanks ".puml".toList by decide),
    getD_afterWord?_trimEnd (show NoBlanks ['>'] by decide), trimStart_trimEnd]
  cases h : trimStart ((afterWord? ['>'] ((afterWord? ".puml".toList t).getD t)).getD
      ((afterWord? ".puml".toList t).getD t)) with
  | nil => rfl
  | cons c r => rw [trimEnd_cons_of_not_isBlank (not_isBlank_of_trimStart_eq_cons h)]

theorem namesLibrary_trimEnd (t : List Char) : namesLibrary (trimEnd t) = namesLibrary t := by
  induction t with
  | nil => rfl
  | cons c t ih =>
    have hany : (afterAny? libraryNames (trimEnd (c :: t))).any endsInclude =
        (afterAny? libraryNames (c :: t)).any endsInclude := by
      rw [afterAny?_trimEnd noBlanks_libraryNames]
      cases afterAny? libraryNames (c :: t) with
      | none => rfl
      | some r => exact endsInclude_trimEnd r
    rw [namesLibrary, ← hany, trimEnd_cons]
    split
    · rename_i h
      rw [Bool.and_eq_true] at h
      rw [h.2]
      rfl
    · rw [namesLibrary, ih]

theorem any_afterBlanks?_trimEnd (t : List Char) :
    (afterBlanks? (trimEnd t)).any namesLibrary = (afterBlanks? t).any namesLibrary := by
  have hstart := trimStart_trimEnd t
  cases t with
  | nil => rfl
  | cons c t =>
    unfold afterBlanks?
    rw [hstart, trimEnd_cons]
    split
    · rename_i h
      rw [Bool.and_eq_true, List.isEmpty_iff] at h
      have ht : trimStart (c :: t) = [] := by
        rw [trimStart_cons_of_isBlank h.2]
        exact trimStart_eq_nil_iff.2 (trimEnd_eq_nil_iff.1 h.1)
      simp [ht, h.2, namesLibrary]
    · cases hc : isBlank c <;> simp [hc, namesLibrary_trimEnd]

theorem isLibraryInclude_trimEnd (line : List Char) :
    isLibraryInclude (trimEnd line) = isLibraryInclude line := by
  rw [isLibraryInclude, trimStart_trimEnd, afterWord?_trimEnd (by decide), isLibraryInclude]
  cases afterWord? "!include".toList (trimStart line) with
  | none => rfl
  | some t =>
    simp only [Option.map_some, getD_afterWord?_trimEnd (show NoBlanks "url".toList by decide)]
    exact any_afterBlanks?_trimEnd _

/-! The two descriptions of a library include agree. -/

private theorem endsInclude_iff {t : List Char} : endsInclude t = true ↔
    ∃ extension bracket space comment, t = extension ++ bracket ++ space ++ comment ∧
      extension.map fold ∈ [[], ".puml".toList] ∧ bracket.map fold ∈ [[], ['>']] ∧
      (∀ c ∈ space, isBlank c = true) ∧ (comment = [] ∨ comment.head? = some '\'') := by
  constructor
  · intro h
    obtain ⟨extension, ht, he⟩ := exists_eq_append_getD_afterWord? ".puml".toList t
    generalize hu : (afterWord? ".puml".toList t).getD t = u at ht
    obtain ⟨bracket, hu', hb⟩ := exists_eq_append_getD_afterWord? ['>'] u
    generalize hv : (afterWord? ['>'] u).getD u = v at hu'
    obtain ⟨space, hs, hsv⟩ := exists_eq_append_trimStart v
    refine ⟨extension, bracket, space, trimStart v, ?_, he, hb, hs, ?_⟩
    · rw [ht, hu', List.append_assoc, List.append_assoc, ← hsv]
    · unfold endsInclude at h
      simp only [hu, hv] at h
      cases hc : trimStart v with
      | nil => exact .inl rfl
      | cons c r =>
        rw [hc] at h
        exact .inr (by simpa using h)
  · rintro ⟨extension, bracket, space, comment, rfl, he, hb, hs, hc⟩
    have hcomment : trimStart (space ++ comment) = comment := by
      rw [trimStart_append_blanks _ hs]
      rcases hc with rfl | hc
      · rfl
      · obtain ⟨r, rfl⟩ := List.head?_eq_some_iff.1 hc
        rfl
    -- Neither a blank nor the start of a comment folds to a full stop or a bracket.
    have hspace : ∀ c ∈ (space ++ comment).head?, fold c ≠ '>' ∧ fold c ≠ '.' := by
      intro c hm
      have : isBlank c = true ∨ c = '\'' := by
        rcases space with _ | ⟨d, space⟩
        · rcases hc with rfl | hc
          · cases hm
          · exact .inr (Option.some.inj (hc.symm.trans hm)).symm
        · exact .inl (hs c (by simp_all))
      rcases this with h | rfl
      · rw [fold_of_isBlank h]
        constructor <;> (rintro rfl; contradiction)
      · decide
    have hbracket : ∀ c ∈ (bracket ++ (space ++ comment)).head?, fold c ≠ '.' := by
      intro c hm
      rcases bracket with _ | ⟨d, bracket⟩
      · exact (hspace c hm).2
      · obtain rfl : d = c := by simpa using hm
        have : fold d = '>' := by simp_all
        rw [this]
        decide
    rw [List.append_assoc, List.append_assoc, endsInclude]
    rw [getD_afterWord?_append (by decide) he fun c hm => by simpa using (hbracket c hm).symm,
      getD_afterWord?_append (by decide) hb fun c hm => by simpa using (hspace c hm).1.symm,
      hcomment]
    rcases hc with rfl | hc
    · rfl
    · obtain ⟨r, rfl⟩ := List.head?_eq_some_iff.1 hc
      rfl

private theorem namesLibrary_iff {t : List Char} : namesLibrary t = true ↔
    ∃ path name rest, t = path ++ name ++ rest ∧ (∀ c ∈ path, isBlank c = false) ∧
      name.map fold ∈ libraryNames ∧ endsInclude rest = true := by
  constructor
  · intro h
    induction t with
    | nil => contradiction
    | cons c t ih =>
      rw [namesLibrary, Bool.or_eq_true, Bool.and_eq_true, Bool.not_eq_true'] at h
      rcases h with h | ⟨hc, h⟩
      · obtain ⟨rest, hr, he⟩ := (Option.any_eq_true _ _).1 h
        obtain ⟨name, ht, hn⟩ := exists_of_afterAny?_eq_some hr
        exact ⟨[], name, rest, ht, by simp, hn, he⟩
      · obtain ⟨path, name, rest, rfl, hp, hn, he⟩ := ih h
        exact ⟨c :: path, name, rest, rfl, List.forall_mem_cons.2 ⟨hc, hp⟩, hn, he⟩
  · rintro ⟨path, name, rest, rfl, hp, hn, he⟩
    induction path with
    | nil =>
      cases name with
      | nil => exact absurd hn (by decide)
      | cons c name =>
        have hr : afterAny? libraryNames (c :: name ++ rest) = some rest :=
          afterAny?_of_mem (by decide) hn
        rw [List.nil_append, List.cons_append, namesLibrary, ← List.cons_append, hr]
        simp [he]
    | cons c path ih =>
      obtain ⟨hc, hp⟩ := List.forall_mem_cons.1 hp
      rw [List.cons_append, List.cons_append, namesLibrary, ih hp, hc]
      simp

private theorem any_afterBlanks?_iff {t : List Char} :
    (afterBlanks? t).any namesLibrary = true ↔ ∃ gap path name rest,
      t = gap ++ (path ++ name ++ rest) ∧ gap ≠ [] ∧ (∀ c ∈ gap, isBlank c = true) ∧
      (∀ c ∈ path, isBlank c = false) ∧ name.map fold ∈ libraryNames ∧
      endsInclude rest = true := by
  unfold afterBlanks?
  constructor
  · intro h
    split at h
    · rename_i hhead
      obtain ⟨path, name, rest, ht, hp, hn, he⟩ := namesLibrary_iff.1 h
      obtain ⟨gap, hg, hgt⟩ := exists_eq_append_trimStart t
      refine ⟨gap, path, name, rest, ht ▸ hgt, ?_, hg, hp, hn, he⟩
      rintro rfl
      rw [List.nil_append] at hgt
      cases hc : trimStart t with
      | nil =>
        rw [hgt, hc] at hhead
        contradiction
      | cons c r =>
        rw [hgt, hc] at hhead
        simp [not_isBlank_of_trimStart_eq_cons hc] at hhead
    · contradiction
  · rintro ⟨gap, path, name, rest, rfl, hgne, hg, hp, hn, he⟩
    obtain ⟨d, gap, rfl⟩ := List.exists_cons_of_ne_nil hgne
    have hhead : isBlank d = true := hg d (by simp)
    have hname : name ≠ [] := by
      rintro rfl
      exact absurd hn (by decide)
    have hblank : NoBlanks (path ++ name) := List.forall_mem_append.2
      ⟨hp, noBlanks_of_map_fold (noBlanks_libraryNames _ hn)⟩
    have hstart : trimStart (path ++ name ++ rest) = path ++ name ++ rest :=
      trimStart_append_of_noBlanks (List.append_ne_nil_of_right_ne_nil _ hname) hblank rest
    rw [trimStart_append_blanks _ hg, hstart]
    simp only [List.cons_append, List.head?_cons, Option.any_some, hhead, ↓reduceIte]
    exact namesLibrary_iff.2 ⟨path, name, rest, rfl, hp, hn, he⟩

theorem isLibraryInclude_iff : isLibraryInclude line = true ↔ IsLibraryLine line := by
  unfold isLibraryInclude IsLibraryLine
  constructor
  · intro h
    cases ht : afterWord? "!include".toList (trimStart line) with
    | none =>
      rw [ht] at h
      contradiction
    | some t =>
      rw [ht] at h
      obtain ⟨verb, hi, hw⟩ := afterWord?_eq_some_iff.1 ht
      obtain ⟨url, hurl, hu⟩ := exists_eq_append_getD_afterWord? "url".toList t
      obtain ⟨gap, path, name, rest, hgap, hgne, hg, hp, hn, he⟩ := any_afterBlanks?_iff.1 h
      obtain ⟨extension, bracket, space, comment, rfl, hx, hb, hs, hc⟩ := endsInclude_iff.1 he
      obtain ⟨blanks, hblanks, hl⟩ := exists_eq_append_trimStart line
      refine ⟨blanks, verb ++ url, gap, path, name, extension, bracket, space, comment, ?_,
        hblanks, ?_, hgne, hg, hp, hn, hx, hb, hs, hc⟩
      · rw [hl, hi, hurl, hgap]
        simp only [List.append_assoc]
      · rw [List.map_append, hw]
        rw [List.mem_cons, List.mem_singleton] at hu
        rcases hu with hu | hu <;> rw [hu] <;> decide
  · rintro ⟨blanks, command, gap, path, name, extension, bracket, space, comment, rfl, hblanks,
      hcommand, hgne, hg, hp, hn, hx, hb, hs, hc⟩
    obtain ⟨verb, url, rfl, hi, hu⟩ : ∃ verb url, command = verb ++ url ∧
        verb.map fold = "!include".toList ∧ url.map fold ∈ [[], "url".toList] := by
      rw [List.mem_cons, List.mem_singleton] at hcommand
      rcases hcommand with h | h
      · exact ⟨command, [], by simp, h, by simp⟩
      · obtain ⟨verb, url, hcu, hi, hu⟩ :=
          List.map_eq_append_iff.1 (h.trans (rfl : _ = "!include".toList ++ "url".toList))
        exact ⟨verb, url, hcu, hi, by simp [hu]⟩
    set tail := gap ++ (path ++ name ++ (extension ++ bracket ++ space ++ comment)) with htail
    have hline : blanks ++ (verb ++ url) ++ gap ++ path ++ name ++ extension ++ bracket ++
        space ++ comment = blanks ++ (verb ++ (url ++ tail)) := by
      simp only [htail, List.append_assoc]
    have hverb : verb ≠ [] := by
      rintro rfl
      contradiction
    have hstart : trimStart (verb ++ (url ++ tail)) = verb ++ (url ++ tail) :=
      trimStart_append_of_noBlanks hverb (noBlanks_of_map_fold (by rw [hi]; decide)) _
    have hurl : (afterWord? "url".toList (url ++ tail)).getD (url ++ tail) = tail := by
      refine getD_afterWord?_append (by decide) hu fun c hm => ?_
      obtain ⟨d, gap, rfl⟩ := List.exists_cons_of_ne_nil hgne
      obtain rfl : d = c := by simpa [htail] using hm
      have hd := hg d (by simp)
      rw [fold_of_isBlank hd]
      rintro h
      obtain rfl : 'u' = d := by simpa using h
      contradiction
    rw [hline, trimStart_append_blanks _ hblanks, hstart, afterWord?_eq_some_iff.2 ⟨_, rfl, hi⟩]
    simp only [hurl]
    exact any_afterBlanks?_iff.2 ⟨gap, path, name, _, htail, hgne, hg, hp, hn,
      endsInclude_iff.2 ⟨extension, bracket, space, comment, rfl, hx, hb, hs, hc⟩⟩

instance : DecidablePred IsMarkerLine := fun _ => decidable_of_iff _ isMarkerLine_iff.symm

instance : DecidablePred IsLibraryLine := fun _ => decidable_of_iff _ isLibraryInclude_iff

end ArchSketch.Diagram
