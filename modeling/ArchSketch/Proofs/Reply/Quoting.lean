import ArchSketch.Proofs.Reply.Explanation
import ArchSketch.Proofs.Reply.Marker
import ArchSketch.Proofs.Reply.Merging
import ArchSketch.Proofs.Text.Lines

/-! A source that is quoted in a fence after an explanation, and what is read back from there. The
fence does not keep backticks of the source apart from its own, and an opening that the explanation
ends in takes the fence for its end. -/
namespace ArchSketch.Reply

open Text Diagram

variable {b s t u : List Char} {blocks : List (List Char)}

def quoted (text source : List Char) : List Char :=
  text ++ "\n\n".toList ++ fence ++ "plantuml\n".toList ++ source ++ "\n".toList ++ fence

/-- The text ends in the opening of a tagged fence, up to its tag. -/
def EndsOpen (t : List Char) : Prop :=
  ∃ gap tag, (∀ c ∈ gap, isInlineBlank c = true) ∧ tag.map fold ∈ tags ∧ fence ++ gap ++ tag <:+ t

theorem endsOpen_of_hasOpener (ht : ¬ HasOpener t) (hlast : ∀ c ∈ t.getLast?, isBlank c = false)
    (h : HasOpener (t ++ ['\n', '\n'])) : EndsOpen t := by
  obtain ⟨w, hw, hwithin⟩ := h
  have hcut := IsOpening.newline_not_mem_dropLast (.inl hw)
  rcases infix_append_cons hcut hwithin with hwithin | hwithin
  · rcases List.infix_concat_iff.1 hwithin with hsuffix | hwithin
    · obtain ⟨gap, tag, stop, rfl, hgap, htag, hstop⟩ := hw
      simp only [List.mem_cons, List.not_mem_nil, or_false] at hstop
      obtain ⟨y, hy⟩ := hsuffix
      rcases hstop with rfl | rfl | rfl | rfl
      · simpa using congrArg List.getLast? hy
      · simpa using congrArg List.getLast? hy
      · exact ⟨gap, tag, hgap, htag, y, List.append_cancel_right (by simpa using hy)⟩
      · -- a carriage return at the end would be a blank
        obtain rfl : y ++ (fence ++ gap ++ tag ++ ['\r']) = t :=
          List.append_cancel_right (by simpa using hy : _ ++ ['\n'] = t ++ ['\n'])
        exact absurd (hlast '\r' (by simp)) (by decide)
    · exact absurd ⟨w, hw, hwithin⟩ ht
  · exact absurd (hwithin.subset hw.backtick_mem) (by decide)

/-! What blocks are joined to. -/

theorem not_fence_infix_joinBlocks (h : ∀ b ∈ blocks, ¬ fence <:+: b) :
    ¬ fence <:+: joinBlocks blocks := by
  induction blocks with
  | nil => decide
  | cons b blocks ih =>
    obtain ⟨hb, h⟩ := List.forall_mem_cons.1 h
    rw [joinBlocks_cons]
    split
    · rw [List.append_assoc]
      intro hwithin
      rcases infix_of_infix_append_cons (by decide) hwithin with hwithin | hwithin
      · obtain ⟨x, y, -, -, ht⟩ := exists_eq_append_trim b
        exact hb (hwithin.trans ⟨x, y, ht.symm⟩)
      · exact ih h hwithin
    · exact ih h

theorem not_fence_infix_of_mem_fencedBlocks (h : b ∈ fencedBlocks t) : ¬ fence <:+: b := by
  obtain ⟨r, s, -, hblock⟩ := exists_of_mem_blocksFrom h
  obtain ⟨f, rfl, -⟩ := fenced?_eq_some_iff.1 hblock
  exact f.plain_body

/-! The first fence of a quotation, when the explanation does not open one. -/

section First

variable {text source : List Char} (hsource : openingMarker <+: source)

include hsource

/-- The fence ends at the first three backticks, and before them the source has begun. -/
theorem exists_fence_quoted (text : List Char) : ∃ (f : Fence) (s : List Char), '@' ∈ f.body ∧
    quoted text source = text ++ ['\n', '\n'] ++ (f.text ++ s) := by
  have hread : find? (fun _ t => afterWord? fence t) true (source ++ '\n' :: fence) ≠ none := by
    intro hnone
    have hpasses := (find?_eq_none_iff.1 hnone).1
    have hsplit : source ++ '\n' :: fence = source ++ ['\n'] ++ fence := by simp
    rw [hsplit] at hpasses
    exact absurd (hpasses.eq_none (by decide)) (by decide)
  obtain ⟨⟨b, s⟩, hfind⟩ := Option.ne_none_iff_exists'.1 hread
  obtain ⟨hsplit, hplain, hlast⟩ := find?_fence_eq_some_iff.1 hfind
  let f : Fence :=
    { gap := [], tag := "plantuml".toList, info := [], lineEnd := ['\n'], body := b
      plain_body := hplain, end_body := hlast }
  refine ⟨f, s, ?_, ?_⟩
  · obtain ⟨rest, rfl⟩ := hsource
    cases b with
    | nil => exact absurd (List.cons.inj hsplit).1 (by decide)
    | cons d b =>
      obtain rfl : '@' = d := (List.cons.inj hsplit).1
      exact List.mem_cons_self
  · have htext : quoted text source = text ++ "\n\n".toList ++
      (fence ++ "plantuml\n".toList ++ (source ++ '\n' :: fence)) := by simp [quoted]
    rw [htext, hsplit]
    simp [Fence.text, f]

theorem source_quoted_of_not_hasOpener (htrim : trim source = source)
    (htext : ¬ HasOpener (text ++ ['\n', '\n'])) :
    Reply.source (quoted text source) = source ++ ['\n'] ↔ ¬ fence <:+: source := by
  constructor
  · intro h hwithin
    obtain ⟨f, s, hbody, hquoted⟩ := exists_fence_quoted hsource text
    have hblocks : fencedBlocks (quoted text source) = f.body :: fencedBlocks s := by
      rw [hquoted, fencedBlocks_prose htext (.inr (f.prefix_text s)), fencedBlocks_text]
    have hne : joinBlocks (fencedBlocks (quoted text source)) ≠ [] := by
      rw [hblocks, Ne, joinBlocks_eq_nil_iff]
      exact fun hblank => absurd (hblank _ List.mem_cons_self _ hbody) (by decide)
    have hplain := not_fence_infix_joinBlocks fun b hb =>
      not_fence_infix_of_mem_fencedBlocks (t := quoted text source) hb
    rw [← source_eq_fenced hne, h] at hplain
    exact hplain (hwithin.trans (List.prefix_append source ['\n']).isInfix)
  · intro hplain
    have hdrawn : ∃ c ∈ source, isBlank c = false :=
      ⟨'@', hsource.subset List.mem_cons_self, by decide⟩
    have hquoted : quoted text source = text ++ ['\n', '\n'] ++
        (fence ++ "plantuml".toList ++ '\n' :: (source ++ '\n' :: fence)) ++ [] := by simp [quoted]
    rw [hquoted, source_append_fence htext (by decide) hplain hdrawn (by simp), htrim]

end First

/-! What is read when the explanation ends in an opening. -/

/-- The fence of the source closes the opening, and what is left is read on its own. -/
theorem source_quoted_of_endsOpen (ht : ¬ HasOpening t) (hopen : EndsOpen t) (s : List Char) :
    source (quoted t s) = source (s ++ '\n' :: fence) := by
  have hmarked : markedBlocks (quoted t s) = markedBlocks (s ++ '\n' :: fence) := by
    have hquoted : quoted t s =
        t ++ '\n' :: "\n```plantuml".toList ++ '\n' :: (s ++ '\n' :: fence) := by
      simp [quoted, fence]
    rw [hquoted, markedBlocks_append_newline]
    intro hm
    rcases Mentions.or_of_blank (by simp) (by decide) hm with hm | hm
    · obtain ⟨w, hw, hwithin⟩ := hm
      exact ht ⟨w, .inr hw, hwithin⟩
    · exact absurd hm (by decide +kernel)
  have hfenced : joinBlocks (fencedBlocks (quoted t s)) =
      joinBlocks (fencedBlocks (s ++ '\n' :: fence)) := by
    obtain ⟨gap, tag, hgap, htag, y, rfl⟩ := hopen
    let f : Fence :=
      { gap, tag, info := [], lineEnd := ['\n'], body := ['\n']
        blank_gap := List.all_eq_true.2 hgap, tag_mem := htag }
    have hy : ¬ HasOpener y := by
      rintro ⟨w, hw, hwithin⟩
      exact ht ⟨w, .inl hw, hwithin.trans (List.prefix_append y _).isInfix⟩
    -- the tag of the quotation is left over as prose
    have hword : Clear "plantuml\n".toList (s ++ '\n' :: fence) :=
      clear_of_not_mem (by decide) (by decide) _
    have hquoted : quoted (y ++ (fence ++ gap ++ tag)) s =
        y ++ (f.text ++ ("plantuml\n".toList ++ (s ++ '\n' :: fence))) := by
      simp [quoted, Fence.text, f]
    rw [hquoted, fencedBlocks_prose hy (.inr (f.prefix_text _)), fencedBlocks_text,
      hword.fencedBlocks_append, joinBlocks_cons]
    rfl
  rw [source, source, hfenced, hmarked]

/-! Pairs of markers on lines of their own. -/

theorem exists_pairs (t : List Char) :
    ∃ pairs : List MarkerPair, markedBlocks t = pairs.map MarkerPair.text := by
  have hrange : markedBlocks t ∈ Set.range (List.map MarkerPair.text) := by
    rw [Set.range_list_map]
    intro b hb
    obtain ⟨r, s, -, hblock⟩ := exists_of_mem_blocksFrom hb
    obtain ⟨p, hp, -⟩ := marked?_eq_some_iff.1 hblock
    exact ⟨p, hp⟩
  obtain ⟨pairs, hpairs⟩ := hrange
  exact ⟨pairs, hpairs.symm⟩

theorem markedBlocks_pairs (pairs : List MarkerPair) :
    markedBlocks ((pairs.map MarkerPair.text).flatMap (· ++ ['\n']) ++ fence) =
      pairs.map MarkerPair.text := by
  induction pairs with
  | nil => rfl
  | cons p pairs ih =>
    let rest := (pairs.map MarkerPair.text).flatMap (· ++ ['\n']) ++ fence
    have htext : ((p :: pairs).map MarkerPair.text).flatMap (· ++ ['\n']) ++ fence =
        p.text ++ '\n' :: rest := by simp [rest]
    rw [htext, markedBlocks_text, List.map_cons]
    exact congrArg _ ih

theorem fencedBlocks_append_fence (h : ¬ fence <:+: s) :
    fencedBlocks (s ++ '\n' :: fence) = [] := by
  have hlead : ¬ HasOpener (s ++ '\n' :: fence) := by
    rintro ⟨w, hw, hwithin⟩
    have hcut := IsOpening.newline_not_mem_dropLast (.inl hw)
    obtain ⟨c, v, rfl, -⟩ := hw.eq_fence_append
    rcases infix_append_cons hcut hwithin with hwithin | hwithin
    · have hstart := (List.prefix_append fence (c :: v)).isInfix.trans hwithin
      exact (infix_of_infix_append_cons (by decide) hstart).elim h (by decide)
    · exact absurd hwithin.length_le (by simp)
  have hread := fencedBlocks_prose hlead (.inl rfl)
  rw [List.append_nil] at hread
  exact hread

theorem source_append_fence_iff (hs : s ≠ []) : source (s ++ '\n' :: fence) = s ++ ['\n'] ↔
    (∀ b ∈ fencedBlocks (s ++ '\n' :: fence), ∀ c ∈ b, isBlank c = true) ∧
      ∃ pairs : List MarkerPair, s = unlines (pairs.map MarkerPair.text) := by
  constructor
  · intro h
    have hblank : joinBlocks (fencedBlocks (s ++ '\n' :: fence)) = [] := by
      by_contra hjoin
      have hplain := not_fence_infix_joinBlocks fun b hb =>
        not_fence_infix_of_mem_fencedBlocks (t := s ++ '\n' :: fence) hb
      rw [← source_eq_fenced hjoin, h] at hplain
      have hs : ¬ fence <:+: s := fun hwithin =>
        hplain (hwithin.trans (List.prefix_append s ['\n']).isInfix)
      exact hjoin (by rw [fencedBlocks_append_fence hs]; rfl)
    obtain ⟨pairs, hpairs⟩ := exists_pairs (s ++ '\n' :: fence)
    refine ⟨joinBlocks_eq_nil_iff.1 hblank, pairs, ?_⟩
    rw [source_eq_marked hblank, hpairs, joinBlocks_map_text] at h
    have hne : pairs.map MarkerPair.text ≠ [] := by
      intro hnil
      simp [hnil] at h
    rw [← unlines_append_newline hne] at h
    exact (List.append_cancel_right h).symm
  · rintro ⟨hblank, pairs, rfl⟩
    have hne : pairs.map MarkerPair.text ≠ [] := by
      intro hnil
      simp [hnil, unlines] at hs
    have hlines : unlines (pairs.map MarkerPair.text) ++ '\n' :: fence =
        (pairs.map MarkerPair.text).flatMap (· ++ ['\n']) ++ fence := by
      rw [← unlines_append_newline hne, List.append_assoc, List.singleton_append]
    rw [source_eq_marked (joinBlocks_eq_nil_iff.2 hblank), hlines, markedBlocks_pairs,
      joinBlocks_map_text, unlines_append_newline hne]

end ArchSketch.Reply
