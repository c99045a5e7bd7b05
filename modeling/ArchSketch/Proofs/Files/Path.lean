import ArchSketch.Files.Path
import ArchSketch.Proofs.Text.Lines

/-! Where paths lead. Without links a path leads to the same location in every store, if it leads
anywhere: its names one after the other, and every two dots take the last of them back. A path
whose extension is replaced by one of two parts never leads to the location it led to before. -/
namespace ArchSketch.Files.Path

open Text

variable {p extension : String} {name : Segment} {l init idles ls : List Segment} {e x : List Char}

def enter (l : List Segment) (segment : Segment) : List Segment :=
  if isIdle segment then l else if segment == dotDot then l.dropLast else l ++ [segment]

/-- Where a path leads from the root. -/
def location (p : String) : List Segment := (segments p).foldl enter []

theorem enter_of_isName (h : isName name = true) (l : List Segment) :
    enter l name = l ++ [name] := by
  rw [isName, Bool.and_eq_true, Bool.not_eq_true', bne_iff_ne] at h
  rw [enter, if_neg (by simp [h.1]), if_neg (by simpa using h.2)]

theorem foldl_enter_of_idle (h : ∀ s ∈ idles, isIdle s = true) (l : List Segment) :
    idles.foldl enter l = l := by
  induction idles with
  | nil => rfl
  | cons s idles ih =>
    obtain ⟨hs, h⟩ := List.forall_mem_cons.1 h
    rw [List.foldl_cons, enter, if_pos hs, ih h]

/-! Segments and the text they make up. -/

theorem intercalate_cons_eq (s : Segment) (ls : List Segment) :
    List.intercalate ['/'] (s :: ls) = s ++ ls.flatMap ('/' :: ·) := by
  induction ls generalizing s with
  | nil => simp
  | cons t ls ih => rw [List.intercalate_cons_cons, ih, List.flatMap_cons]; simp

theorem intercalate_append_cons (init : List Segment) (s : Segment) (ls : List Segment) :
    List.intercalate ['/'] (init ++ s :: ls) =
      init.flatMap (· ++ ['/']) ++ List.intercalate ['/'] (s :: ls) := by
  induction init with
  | nil => rfl
  | cons t init ih =>
    obtain ⟨u, us, hu⟩ : ∃ u us, init ++ s :: ls = u :: us :=
      List.exists_cons_of_ne_nil (by simp)
    rw [List.cons_append, hu, List.intercalate_cons_cons, ← hu, ih]
    simp

theorem segments_ofSegments (hne : ls ≠ []) (h : ∀ s ∈ ls, '/' ∉ s) :
    segments (ofSegments ls) = ls := by
  rw [segments, ofSegments, String.toList_ofList]
  have hcut : ∀ s ∈ ls, ∀ c ∈ s, (c == '/') = false := fun s hs c hc => by
    simpa using fun hslash : c = '/' => h s hs (hslash ▸ hc)
  clear h
  induction ls with
  | nil => exact absurd rfl hne
  | cons s ls ih =>
    obtain ⟨hs, hcut⟩ := List.forall_mem_cons.1 hcut
    cases ls with
    | nil => rw [List.intercalate_singleton, pieces_of_forall_not hs]
    | cons t ls =>
      rw [List.intercalate_cons_cons, List.append_assoc, List.singleton_append,
        pieces_append_cons hs rfl, ih (by simp) hcut]

theorem toList_ofSegments (init : List Segment) (s : Segment) (ls : List Segment) :
    (ofSegments (init ++ s :: ls)).toList =
      init.flatMap (· ++ ['/']) ++ (s ++ ls.flatMap ('/' :: ·)) := by
  rw [ofSegments, String.toList_ofList, intercalate_append_cons, intercalate_cons_eq]

theorem slash_not_mem_segments (hs : name ∈ segments p) : '/' ∉ name := fun h => by
  simpa using not_cut_of_mem_pieces hs _ h

theorem ofSegments_segments (p : String) : ofSegments (segments p) = p := by
  rw [ofSegments, segments, intercalate_pieces, String.ofList_toList]

/-! The name at the end of a path. -/

theorem dropIdle_cons (s : Segment) (ls : List Segment) :
    dropIdle (s :: ls) = if (dropIdle ls).isEmpty && isIdle s then [] else s :: dropIdle ls := rfl

theorem dropIdle_eq_nil (h : ∀ s ∈ idles, isIdle s = true) : dropIdle idles = [] := by
  induction idles with
  | nil => rfl
  | cons s idles ih =>
    obtain ⟨hs, h⟩ := List.forall_mem_cons.1 h
    simp [dropIdle_cons, ih h, hs]

theorem dropIdle_append_cons (hname : isIdle name = false) (h : ∀ s ∈ idles, isIdle s = true)
    (init : List Segment) : dropIdle (init ++ name :: idles) = init ++ [name] := by
  induction init with
  | nil => simp [dropIdle_cons, dropIdle_eq_nil h, hname]
  | cons s init ih => simp [dropIdle_cons, ih]

theorem exists_eq_dropIdle_append (ls : List Segment) :
    ∃ idles, (∀ s ∈ idles, isIdle s = true) ∧ ls = dropIdle ls ++ idles := by
  induction ls with
  | nil => exact ⟨[], by simp [dropIdle]⟩
  | cons s ls ih =>
    obtain ⟨idles, hidle, hls⟩ := ih
    rw [dropIdle_cons]
    split
    · rename_i h
      rw [Bool.and_eq_true, List.isEmpty_iff] at h
      rw [h.1, List.nil_append] at hls
      exact ⟨s :: ls, List.forall_mem_cons.2 ⟨h.2, hls ▸ hidle⟩, rfl⟩
    · exact ⟨idles, hidle, by rw [List.cons_append, ← hls]⟩

theorem split_eq (hsegments : segments p = init ++ name :: idles) (hname : isIdle name = false)
    (hidle : ∀ s ∈ idles, isIdle s = true) : (split p).1 :: (split p).2 = init ++ [name] := by
  rw [split, hsegments]
  cases init with
  | nil => simp [dropIdle_eq_nil hidle]
  | cons s init => simp [dropIdle_append_cons hname hidle]

/-- Whether the path ends in the name of a file, whatever idle segments come after it. -/
def hasName (p : String) : Bool := ((split p).1 :: (split p).2).getLast?.any isName

theorem exists_segments_of_hasName (h : hasName p = true) :
    ∃ init name idles, segments p = init ++ name :: idles ∧ isName name = true ∧
      ∀ s ∈ idles, isIdle s = true := by
  obtain ⟨first, others, hsegments⟩ :=
    List.exists_cons_of_ne_nil (pieces_ne_nil (· == '/') p.toList)
  change segments p = _ at hsegments
  obtain ⟨idles, hidle, hothers⟩ := exists_eq_dropIdle_append others
  rw [hasName, split, hsegments, Option.any_eq_true] at h
  obtain ⟨name, hlast, hname⟩ := h
  obtain ⟨init, hinit⟩ := List.getLast?_eq_some_iff.1 hlast
  refine ⟨init, name, idles, ?_, hname, hidle⟩
  calc segments p = (first :: dropIdle others) ++ idles := by
        rw [hsegments, List.cons_append, ← hothers]
    _ = init ++ name :: idles := by rw [hinit, List.append_assoc, List.singleton_append]

theorem location_eq (hsegments : segments p = init ++ name :: idles) (hname : isName name = true)
    (hidle : ∀ s ∈ idles, isIdle s = true) : location p = init.foldl enter [] ++ [name] := by
  rw [location, hsegments, List.foldl_append, List.foldl_cons, enter_of_isName hname,
    foldl_enter_of_idle hidle]

/-! The extension of a name. -/

theorem stem_append (hx : x ≠ []) (he : '.' ∉ e) : stem (x ++ '.' :: e) = x := by
  have hdrop : (x ++ '.' :: e).reverse.dropWhile (· != '.') = '.' :: x.reverse := by
    rw [List.reverse_append, List.reverse_cons, List.append_assoc,
      List.dropWhile_append_of_pos (by simpa using fun c hc => by rintro rfl; exact he hc)]
    rfl
  rw [stem, hdrop, List.tail_cons, List.reverse_reverse]
  split
  · exact absurd rfl hx
  · rfl

/-- A name is all stem, or it goes on with its last dot and an extension. -/
theorem stem_cases (name : Segment) :
    stem name = name ∨ ∃ e, name = stem name ++ '.' :: e ∧ '.' ∉ e ∧ stem name ≠ [] := by
  have hsplit := List.takeWhile_append_dropWhile (p := (· != '.')) (l := name.reverse)
  have hplain : '.' ∉ name.reverse.takeWhile (· != '.') := fun h => by
    simpa using List.mem_takeWhile_imp h
  cases hdrop : name.reverse.dropWhile (· != '.') with
  | nil => exact .inl (by simp [stem, hdrop])
  | cons c rest =>
    have hc : c = '.' := by
      have := List.head?_dropWhile_not (· != '.') name.reverse
      rw [hdrop] at this
      simpa using this
    subst hc
    by_cases hrest : rest = []
    · exact .inl (by simp [stem, hdrop, hrest])
    · have hname : name = rest.reverse ++ '.' :: (name.reverse.takeWhile (· != '.')).reverse := by
        rw [hdrop] at hsplit
        simpa using (congrArg List.reverse hsplit).symm
      have hstem : stem name = rest.reverse := by
        conv => lhs; rw [hname]
        exact stem_append (by simpa using hrest) (by simpa using hplain)
      exact .inr ⟨_, hstem ▸ hname, by simpa using hplain, by simpa [hstem] using hrest⟩

theorem stem_ne_nil (h : isName name = true) : stem name ≠ [] := by
  rcases stem_cases name with hstem | ⟨e, -, -, hstem⟩
  · rw [hstem]
    rintro rfl
    contradiction
  · exact hstem

theorem slash_not_mem_stem (h : '/' ∉ name) : '/' ∉ stem name := by
  rcases stem_cases name with hstem | ⟨e, he, -⟩
  · rwa [hstem]
  · exact fun hm => h (he ▸ List.mem_append_left _ hm)

theorem isName_stem_append (h : isName name = true) (he : e ≠ []) :
    isName (stem name ++ '.' :: e) = true := by
  obtain ⟨c, x, hx⟩ := List.exists_cons_of_ne_nil (stem_ne_nil h)
  obtain ⟨d, e, rfl⟩ := List.exists_cons_of_ne_nil he
  rw [hx]
  cases x <;> simp [isName, isIdle, dot, dotDot]

/-! Replacing the extension. What is taken off the end of the path may leave a part of it there,
when idle segments come after the name, or leave two dots where the name was. -/

theorem isIdle_iff : isIdle name = true ↔ name = [] ∨ name = dot := by
  simp [isIdle]

theorem exists_take_idles (h : ∀ s ∈ idles, isIdle s = true) (n : ℕ) :
    ∃ idles' : List Segment, (∀ s ∈ idles', isIdle s = true) ∧
      (idles.flatMap ('/' :: ·)).take n = idles'.flatMap ('/' :: ·) := by
  induction idles generalizing n with
  | nil => exact ⟨[], by simp⟩
  | cons s idles ih =>
    obtain ⟨hs, h⟩ := List.forall_mem_cons.1 h
    match n, isIdle_iff.1 hs with
    | 0, _ => exact ⟨[], by simp⟩
    | n + 1, .inl hnil =>
      obtain ⟨idles', hidle, htake⟩ := ih h n
      exact ⟨s :: idles', List.forall_mem_cons.2 ⟨hs, hidle⟩, by simp [hnil, htake]⟩
    | 1, .inr hdot => exact ⟨[[]], by simp [isIdle], by simp⟩
    | n + 2, .inr hdot =>
      obtain ⟨idles', hidle, htake⟩ := ih h n
      exact ⟨s :: idles', List.forall_mem_cons.2 ⟨hs, hidle⟩, by simp [hdot, dot, htake]⟩

theorem exists_take_extension (hname : isName name = true) (hslash : '/' ∉ name)
    (hidle : ∀ s ∈ idles, isIdle s = true) :
    ∃ (name' : Segment) (idles' : List Segment), (name ++ idles.flatMap ('/' :: ·)).take
        ((name ++ idles.flatMap ('/' :: ·)).length - extensionLength name) =
          name' ++ idles'.flatMap ('/' :: ·) ∧ '/' ∉ name' ∧ (∀ s ∈ idles', isIdle s = true) ∧
      (name' = dotDot ∨ isName name' = true ∧ stem name' = stem name) := by
  rcases stem_cases name with hstem | ⟨e, he, hplain, hne⟩
  · have hlength : extensionLength name = 0 := by rw [extensionLength, if_pos hname, hstem]; omega
    exact ⟨name, idles, by simp [hlength], hslash, hidle, .inr ⟨hname, rfl⟩⟩
  generalize stem name = x at he hne
  subst he
  have hlength : extensionLength (x ++ '.' :: e) = e.length := by
    rw [extensionLength, if_pos hname, stem_append hne hplain]
    simp
  generalize hj : idles.flatMap ('/' :: ·) = j
  rw [hlength]
  by_cases hshort : j.length ≤ e.length
  · refine ⟨x ++ '.' :: e.take j.length, [], ?_, ?_, by simp, ?_⟩
    · have hcount : (x ++ '.' :: e ++ j).length - e.length = x.length + (1 + j.length) := by
        simp only [List.length_append, List.length_cons]
        omega
      rw [hcount, List.append_assoc, List.take_length_add_append, Nat.add_comm 1, List.cons_append,
        List.take_succ_cons, List.take_append_of_le_length hshort]
      simp
    · rw [List.mem_append, List.mem_cons, not_or, not_or] at hslash ⊢
      exact ⟨hslash.1, by decide, fun h => hslash.2.2 (List.mem_of_mem_take h)⟩
    · by_cases hdots : x ++ '.' :: e.take j.length = dotDot
      · exact .inl hdots
      · refine .inr ⟨?_, ?_⟩
        · obtain ⟨c, x, rfl⟩ := List.exists_cons_of_ne_nil hne
          rw [isName, Bool.and_eq_true, bne_iff_ne, Bool.not_eq_true', Bool.eq_false_iff, Ne,
            isIdle_iff]
          exact ⟨by simp [dot], hdots⟩
        · exact stem_append hne fun h => hplain (List.mem_of_mem_take h)
  · obtain ⟨idles', hidle', htake⟩ := exists_take_idles hidle (j.length - e.length)
    have hcount : (x ++ '.' :: e ++ j).length - e.length =
        (x ++ '.' :: e).length + (j.length - e.length) := by
      simp only [List.length_append, List.length_cons]
      omega
    refine ⟨x ++ '.' :: e, idles', ?_, hslash, hidle', .inr ⟨hname, stem_append hne hplain⟩⟩
    rw [hcount, List.take_length_add_append, ← hj, ← htake, hj]

theorem setExtension_eq (hsegments : segments p = init ++ name :: idles)
    (hname : isIdle name = false) (hidle : ∀ s ∈ idles, isIdle s = true) (extension : String) :
    setExtension p extension =
      if isName name then ofSegments (init ++ [stem name ++ '.' :: extension.toList]) else p := by
  have hsplit := split_eq hsegments hname hidle
  unfold setExtension
  rcases hp : split p with ⟨first, others⟩
  rw [hp] at hsplit
  dsimp only at hsplit ⊢
  rw [hsplit, List.getLast?_concat, List.dropLast_concat]

theorem withExtension_eq (hsegments : segments p = init ++ name :: idles)
    (hname : isIdle name = false) (hidle : ∀ s ∈ idles, isIdle s = true) (extension : String) :
    withExtension p extension =
      setExtension (String.ofList (p.toList.take (p.length - extensionLength name))) extension := by
  have hsplit := split_eq hsegments hname hidle
  unfold withExtension
  rcases hp : split p with ⟨first, others⟩
  rw [hp] at hsplit
  dsimp only at hsplit ⊢
  rw [hsplit, List.getLast?_concat]
  rfl

theorem slash_not_mem_of_isIdle (h : isIdle name = true) : '/' ∉ name := by
  rcases isIdle_iff.1 h with rfl | rfl <;> decide

theorem exists_segments_take (hsegments : segments p = init ++ name :: idles)
    (hname : isName name = true) (hidle : ∀ s ∈ idles, isIdle s = true) :
    ∃ (name' : Segment) (idles' : List Segment),
      segments (String.ofList (p.toList.take (p.length - extensionLength name))) =
        init ++ name' :: idles' ∧ (∀ s ∈ idles', isIdle s = true) ∧
      (name' = dotDot ∨ isName name' = true ∧ stem name' = stem name) := by
  have hslashes : ∀ s ∈ init ++ name :: idles, '/' ∉ s := fun s hs =>
    slash_not_mem_segments (hsegments ▸ hs)
  obtain ⟨name', idles', htake, hslash', hidle', hname'⟩ :=
    exists_take_extension hname (hslashes name (by simp)) hidle
  refine ⟨name', idles', ?_, hidle', hname'⟩
  have htext : p.toList = init.flatMap (· ++ ['/']) ++ (name ++ idles.flatMap ('/' :: ·)) := by
    rw [← toList_ofSegments, ← hsegments, ofSegments_segments]
  have hshort : extensionLength name ≤ name.length := by
    unfold extensionLength
    split <;> omega
  have hcount : p.length - extensionLength name = (init.flatMap (· ++ ['/'])).length +
      ((name ++ idles.flatMap ('/' :: ·)).length - extensionLength name) := by
    rw [← String.length_toList, htext, List.length_append, Nat.add_sub_assoc]
    rw [List.length_append]
    omega
  have hrest : String.ofList (p.toList.take (p.length - extensionLength name)) =
      ofSegments (init ++ name' :: idles') := by
    rw [← String.toList_inj, toList_ofSegments, String.toList_ofList, hcount, htext,
      List.take_length_add_append, htake]
  rw [hrest, segments_ofSegments (by simp)]
  intro s hs
  rcases List.mem_append.1 hs with hs | hs
  · exact hslashes s (List.mem_append_left _ hs)
  · rcases List.mem_cons.1 hs with rfl | hs
    · exact hslash'
    · exact slash_not_mem_of_isIdle (hidle' s hs)

/-- Where a path with another extension leads: to a name beside the old one, or, when nothing but
two dots was left of the name, out of the directory. -/
theorem location_withExtension (hsegments : segments p = init ++ name :: idles)
    (hname : isName name = true) (hidle : ∀ s ∈ idles, isIdle s = true)
    (hextension : extension.toList ≠ []) (hslash : '/' ∉ extension.toList) :
    location (withExtension p extension) =
        init.foldl enter [] ++ [stem name ++ '.' :: extension.toList] ∨
      location (withExtension p extension) = (init.foldl enter []).dropLast := by
  have hslashes : ∀ s ∈ init ++ [name], '/' ∉ s := fun s hs =>
    slash_not_mem_segments (by rw [hsegments]; simp only [List.mem_append] at hs ⊢; grind)
  have hnotIdle : isIdle name = false := by simp_all [isName]
  obtain ⟨name', idles', hsegments', hidle', hname'⟩ := exists_segments_take hsegments hname hidle
  rw [withExtension_eq hsegments hnotIdle hidle]
  generalize String.ofList (p.toList.take (p.length - extensionLength name)) = q at hsegments'
  rcases hname' with rfl | ⟨hname', hstem⟩
  · right
    rw [setExtension_eq hsegments' (by decide) hidle', if_neg (by decide), location, hsegments',
      List.foldl_append, List.foldl_cons, foldl_enter_of_idle hidle']
    rfl
  · left
    have hnotIdle' : isIdle name' = false := by simp_all [isName]
    rw [setExtension_eq hsegments' hnotIdle' hidle', if_pos hname', hstem]
    have hnew := isName_stem_append hname hextension
    have hlast : ∀ s ∈ ([] : List Segment), isIdle s = true := by simp
    refine location_eq (segments_ofSegments (by simp) ?_) hnew hlast
    intro s hs
    rcases List.mem_append.1 hs with hs | hs
    · exact hslashes s (List.mem_append_left _ hs)
    · rw [List.mem_singleton.1 hs, List.mem_append, List.mem_cons, not_or, not_or]
      exact ⟨slash_not_mem_stem (hslashes name (by simp)), by decide, hslash⟩

/-- The extension that a name has is without dots, so one of two parts makes it another name. -/
theorem location_withExtension_ne (h : hasName p = true) (hdot : '.' ∈ extension.toList)
    (hslash : '/' ∉ extension.toList) : location (withExtension p extension) ≠ location p := by
  obtain ⟨init, name, idles, hsegments, hname, hidle⟩ := exists_segments_of_hasName h
  rw [location_eq hsegments hname hidle]
  rcases location_withExtension hsegments hname hidle (List.ne_nil_of_mem hdot) hslash with
    hnew | hnew
  · rw [hnew]
    intro heq
    have hsame : stem name ++ '.' :: extension.toList = name :=
      List.singleton_inj.1 (List.append_cancel_left heq)
    rcases stem_cases name with hstem | ⟨e, he, hplain, -⟩
    · simpa [hstem] using congrArg List.length hsame
    · have htwoParts : extension.toList = e :=
        (List.cons.inj (List.append_cancel_left (hsame.trans he))).2
      exact hplain (htwoParts ▸ hdot)
  · rw [hnew]
    intro heq
    have := congrArg List.length heq
    simp only [List.length_dropLast, List.length_append, List.length_singleton] at this
    omega

end ArchSketch.Files.Path
