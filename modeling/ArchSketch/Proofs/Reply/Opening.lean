import ArchSketch.Proofs.Diagram.Line
import ArchSketch.Proofs.Text.Search
import ArchSketch.Reply.Explanation

/-! What opens a diagram in a reply: a tagged fence, told by what stands up to the end of its tag,
or a start marker. The readers of blocks and the search for the end of an explanation look for the
same openings. -/
namespace ArchSketch.Reply

open Text Diagram

variable {t u w gap tag : List Char} {atLineStart : Bool}

/-- Three backticks, blanks, a tag, and the blank or line end that shows the tag to be a word. -/
def IsOpener (w : List Char) : Prop :=
  ∃ gap tag stop, w = fence ++ gap ++ tag ++ stop ∧ (∀ c ∈ gap, isInlineBlank c = true) ∧
    tag.map fold ∈ tags ∧ stop ∈ [[' '], ['\t'], ['\n'], ['\r', '\n']]

def IsOpening (w : List Char) : Prop := IsOpener w ∨ w.map fold = openingMarker

theorem afterWord?_fence {r : List Char} : afterWord? fence t = some r ↔ t = fence ++ r := by
  rw [afterWord?_eq_some_iff]
  constructor
  · rintro ⟨p, rfl, hp⟩
    rw [eq_of_map_fold hp (by simp [fence])]
  · rintro rfl
    exact ⟨fence, rfl, by decide⟩

theorem isSome_afterWord?_iff {word : List Char} :
    (afterWord? word t).isSome ↔ ∃ w, w.map fold = word ∧ w <+: t := by
  rw [Option.isSome_iff_exists]
  simp only [afterWord?_eq_some_iff]
  constructor
  · rintro ⟨r, w, rfl, hw⟩
    exact ⟨w, hw, List.prefix_append w r⟩
  · rintro ⟨w, hw, r, rfl⟩
    exact ⟨r, w, rfl, hw⟩

theorem backtick_not_mem_gap (hgap : ∀ c ∈ gap, isInlineBlank c = true) : '\x60' ∉ gap :=
  fun h => absurd (hgap _ h) (by decide)

theorem noBlanks_tag (htag : tag.map fold ∈ tags) : NoBlanks tag := by
  have hwords : ∀ word ∈ tags, NoBlanks word := by decide
  exact noBlanks_of_map_fold (hwords _ htag)

theorem IsOpener.backtick_mem (h : IsOpener w) : '\x60' ∈ w := by
  obtain ⟨gap, tag, stop, rfl, -⟩ := h
  simp [fence]

theorem newline_not_mem_marker (h : w.map fold = openingMarker) : '\n' ∉ w := fun hm =>
  absurd (noBlanks_of_map_fold (h ▸ noBlanks_openingMarker) _ hm) (by decide)

theorem IsOpening.newline_not_mem_dropLast (h : IsOpening w) : '\n' ∉ w.dropLast := by
  rcases h with ⟨gap, tag, stop, rfl, hgap, htag, hstop⟩ | hmarker
  · have hends : ∀ stop ∈ [[' '], ['\t'], ['\n'], ['\r', '\n']],
        stop ≠ [] ∧ '\n' ∉ stop.dropLast := by decide
    obtain ⟨hne, hlast⟩ := hends stop hstop
    rw [List.dropLast_append_of_ne_nil hne]
    simp only [List.mem_append, not_or]
    refine ⟨⟨⟨by decide, fun h => absurd (hgap _ h) (by decide)⟩, fun h => ?_⟩, hlast⟩
    exact absurd (noBlanks_tag htag _ h) (by decide)
  · exact mt List.mem_of_mem_dropLast (newline_not_mem_marker hmarker)

theorem endsTag_iff : endsTag u = true ↔
    ∃ stop ∈ [[' '], ['\t'], ['\n'], ['\r', '\n']], stop <+: u := by
  constructor
  · intro h
    unfold endsTag at h
    split at h
    · exact ⟨['\n'], by simp, by simp⟩
    · exact ⟨['\r', '\n'], by simp, by simp⟩
    · rename_i c r _ _
      simp only [isInlineBlank, Bool.or_eq_true, beq_iff_eq] at h
      exact ⟨[c], by simpa using h.imp_right .inl, by simp⟩
    · contradiction
  · rintro ⟨stop, hstop, r, rfl⟩
    simp only [List.mem_cons, List.not_mem_nil, or_false] at hstop
    rcases hstop with rfl | rfl | rfl | rfl <;> rfl

/-- A tag is read as the word it is, though one of the tags begins another. -/
theorem afterAny?_tags (htag : tag.map fold ∈ tags) (hu : endsTag u = true) :
    afterAny? tags (tag ++ u) = some u := by
  have hhead : ∀ c ∈ u.head?, fold c ≠ 'p' := by
    obtain ⟨stop, hstop, r, rfl⟩ := endsTag_iff.1 hu
    simp only [List.mem_cons, List.not_mem_nil, or_false] at hstop
    rintro c hc
    rcases hstop with rfl | rfl | rfl | rfl <;> obtain rfl := Option.some.inj hc <;> decide
  let long := ["c4plantuml".toList, "plantuml".toList, "puml".toList]
  have hsplit : tags = long ++ ["c4".toList] := rfl
  have hany : afterAny? tags (tag ++ u) =
      (afterAny? long (tag ++ u)).or (afterWord? "c4".toList (tag ++ u)) := by
    rw [hsplit, afterAny?, List.findSome?_append, List.findSome?_singleton]
    rfl
  rw [hsplit, List.mem_append, List.mem_singleton] at htag
  rw [hany]
  rcases htag with hlong | hshort
  · rw [afterAny?_of_mem (by decide) hlong, Option.some_or]
  · -- the longer tag that begins like this one goes on where the text does not
    have hlong : afterAny? long (tag ++ u) = none := by
      obtain ⟨x, y, rfl, hx, hy⟩ : ∃ x y, tag = [x, y] ∧ fold x = 'c' ∧ fold y = '4' := by
        simpa [List.map_eq_cons_iff] using hshort
      have hplantuml : afterWord? "plantuml".toList u = none :=
        afterWord?_eq_none_of_head (by decide) fun c hc => by simpa using (hhead c hc).symm
      simpa [afterAny?, long, afterWord?, hx, hy] using hplantuml
    rw [hlong, Option.none_or, afterWord?_eq_some_iff.2 ⟨tag, rfl, hshort⟩]

theorem afterTag?_tagged (hgap : ∀ c ∈ gap, isInlineBlank c = true)
    (htag : tag.map fold ∈ tags) (hu : endsTag u = true) :
    afterTag? (fence ++ gap ++ tag ++ u) = some u := by
  have hstart : (gap ++ (tag ++ u)).dropWhile isInlineBlank = tag ++ u := by
    rw [List.dropWhile_append_of_pos hgap]
    cases tag with
    | nil => exact absurd htag (by decide)
    | cons c tag =>
      have hc : isInlineBlank c = false := by
        rw [Bool.eq_false_iff]
        intro hblank
        have := (noBlanks_cons.1 (noBlanks_tag htag)).1
        rw [isBlank_of_isInlineBlank hblank] at this
        contradiction
      rw [List.cons_append, List.dropWhile_cons_of_neg (by simp [hc])]
  rw [afterTag?, List.append_assoc, List.append_assoc, afterWord?_fence.2 rfl, Option.bind_some,
    hstart, afterAny?_tags htag hu]

theorem exists_of_afterTag? (h : afterTag? t = some u) :
    ∃ gap tag, t = fence ++ gap ++ tag ++ u ∧ (∀ c ∈ gap, isInlineBlank c = true) ∧
      tag.map fold ∈ tags := by
  obtain ⟨r, hr, hany⟩ := Option.bind_eq_some_iff.1 h
  obtain ⟨tag, ht, htag⟩ := exists_of_afterAny?_eq_some hany
  refine ⟨r.takeWhile isInlineBlank, tag, ?_, fun c hc => List.mem_takeWhile_imp hc, htag⟩
  rw [afterWord?_fence.1 hr, List.append_assoc, List.append_assoc, ← ht,
    List.takeWhile_append_dropWhile]

theorem any_endsTag_iff : (afterTag? t).any endsTag = true ↔ ∃ w, IsOpener w ∧ w <+: t := by
  rw [Option.any_eq_true]
  constructor
  · rintro ⟨u, hu, hends⟩
    obtain ⟨gap, tag, rfl, hgap, htag⟩ := exists_of_afterTag? hu
    obtain ⟨stop, hstop, r, rfl⟩ := endsTag_iff.1 hends
    exact ⟨_, ⟨gap, tag, stop, rfl, hgap, htag, hstop⟩, r, by simp⟩
  · rintro ⟨w, ⟨gap, tag, stop, rfl, hgap, htag, hstop⟩, r, rfl⟩
    have hends : endsTag (stop ++ r) = true :=
      endsTag_iff.2 ⟨stop, hstop, List.prefix_append stop r⟩
    exact ⟨stop ++ r, by rw [List.append_assoc, afterTag?_tagged hgap htag hends], hends⟩

def HasOpener (t : List Char) : Prop := ∃ w, IsOpener w ∧ w <:+: t

theorem not_hasOpener_of_not_mem (h : '\x60' ∉ t) : ¬ HasOpener t := by
  rintro ⟨w, hw, hwithin⟩
  exact h (hwithin.subset hw.backtick_mem)

theorem hasOpener_iff : HasOpener t ↔ (t.tails.any fun r => (afterTag? r).any endsTag) = true := by
  simp only [HasOpener, List.infix_iff_prefix_suffix, List.any_eq_true, any_endsTag_iff,
    List.mem_tails]
  grind

instance : DecidablePred HasOpener := fun _ => decidable_of_iff _ hasOpener_iff.symm

/-- The diagram part begins where something opens it, or at a line that starts with a fence. -/
theorem diagramStart_eq_none_iff : diagramStart atLineStart t = none ↔
    (atLineStart = true → ¬ fence <+: t.dropWhile isInlineBlank) ∧
      ¬ ∃ w, IsOpening w ∧ w <+: t := by
  have hfence : (afterWord? fence (t.dropWhile isInlineBlank)).isSome = true ↔
      fence <+: t.dropWhile isInlineBlank := by
    rw [Option.isSome_iff_exists]
    exact exists_congr fun r => afterWord?_fence.trans eq_comm
  have hopening : (∃ w, IsOpening w ∧ w <+: t) ↔
      (afterTag? t).any endsTag = true ∨ (afterWord? openingMarker t).isSome = true := by
    rw [any_endsTag_iff, isSome_afterWord?_iff, ← exists_or]
    simp only [IsOpening, or_and_right]
  rw [hopening, ← hfence, diagramStart]
  cases atLineStart <;> simp [not_or, and_assoc]

def HasOpening (t : List Char) : Prop := ∃ w, IsOpening w ∧ w <:+: t

theorem HasOpener.hasOpening (h : HasOpener t) : HasOpening t := by
  obtain ⟨w, hw, hwithin⟩ := h
  exact ⟨w, .inl hw, hwithin⟩

theorem hasOpening_iff :
    HasOpening t ↔ (t.tails.any fun r => (diagramStart false r).isSome) = true := by
  have hstart (r : List Char) :
      (diagramStart false r).isSome = true ↔ ∃ w, IsOpening w ∧ w <+: r := by
    rw [Option.isSome_iff_ne_none, Ne, diagramStart_eq_none_iff]
    simp
  simp only [HasOpening, List.infix_iff_prefix_suffix, List.any_eq_true, hstart, List.mem_tails]
  grind

instance : DecidablePred HasOpening := fun _ => decidable_of_iff _ hasOpening_iff.symm

end ArchSketch.Reply
