import ArchSketch.Files.Store
import ArchSketch.Proofs.Files.Path

/-! What a path leads through. A path is followed one segment at a time, and its parents are spelled
by its first segments, so all that stands between the root and the end of a path is on the way of
the path itself. -/
namespace ArchSketch.Files.Path

open Text

variable {p q : String}

/-- Where a path leads with each of its segments, from the root on. -/
def way (p : String) : List (List Segment) := (segments p).scanl enter []

example : way "out/../drawings" = [[], ["out".toList], [], ["drawings".toList]] := by decide

theorem location_mem_way (p : String) : location p ∈ way p :=
  List.mem_of_getLast? List.getLast?_scanl

theorem root_mem_way (p : String) : [] ∈ way p := List.mem_of_head? List.head?_scanl

theorem way_subset_of_isPrefix (h : segments q <+: segments p) : way q ⊆ way p := by
  obtain ⟨rest, hrest⟩ := h
  rw [way, way, ← hrest, List.scanl_append]
  exact List.subset_append_left _ _

theorem way_subset_of_idle (h : ∀ s ∈ segments q, isIdle s = true) (p : String) :
    way q ⊆ way p := by
  intro l hl
  obtain ⟨n, hn, rfl⟩ := List.mem_iff_getElem.1 hl
  have hroot : (way q)[n] = [] :=
    List.getElem_scanl hn ▸ foldl_enter_of_idle (fun s hs => h s (List.mem_of_mem_take hs)) []
  exact hroot ▸ root_mem_way p

theorem dropIdle_isPrefix (ls : List Segment) : dropIdle ls <+: ls := by
  obtain ⟨idles, -, hls⟩ := exists_eq_dropIdle_append ls
  exact ⟨idles, hls.symm⟩

theorem segments_isPrefix_of_parent? (h : parent? p = some q) :
    segments q <+: segments p ∨ q = "" ∨ q = "/" := by
  obtain ⟨first, others, hsegments⟩ :=
    List.exists_cons_of_ne_nil (pieces_ne_nil (· == '/') p.toList)
  change segments p = _ at hsegments
  have hspelled (os : List Segment) (hos : os <+: others) :
      segments (ofSegments (first :: os)) <+: segments p := by
    have hwhole : first :: os <+: segments p := hsegments ▸ List.cons_prefix_cons.2 ⟨rfl, hos⟩
    rwa [segments_ofSegments (by simp) fun s hs => slash_not_mem_segments (hwhole.subset hs)]
  have hlast : dropIdle (dropIdle others).dropLast <+: others :=
    (dropIdle_isPrefix _).trans ((List.dropLast_prefix _).trans (dropIdle_isPrefix others))
  unfold parent? at h
  rw [split, hsegments] at h
  dsimp only at h
  split at h
  · contradiction
  · exact .inr (.inl (Option.some.inj h).symm)
  · rename_i heq
    obtain ⟨rfl, rfl⟩ := Prod.mk.inj heq
    split at h
    · obtain rfl := Option.some.inj h
      split
      · exact .inr (.inr rfl)
      · exact .inl (by simpa [ofSegments] using hspelled [] List.nil_prefix)
    · obtain rfl := Option.some.inj h
      exact .inl (hspelled _ hlast)

theorem way_parent?_subset (h : parent? p = some q) : way q ⊆ way p := by
  rcases segments_isPrefix_of_parent? h with hprefix | rfl | rfl
  · exact way_subset_of_isPrefix hprefix
  · exact way_subset_of_idle (by decide) p
  · exact way_subset_of_idle (by decide) p

theorem location_append_slash (t : List Char) :
    location (String.ofList (t ++ ['/'])) = location (String.ofList t) := by
  rw [location, location, segments, segments, String.toList_ofList, String.toList_ofList,
    pieces_append rfl, List.foldl_append]
  rfl

theorem location_dropSlashes (p : String) : location (Store.dropSlashes p) = location p := by
  rw [Store.dropSlashes]
  conv => rhs; rw [← String.ofList_toList (s := p)]
  induction p.toList using List.reverseRecOn with
  | nil => rfl
  | append_singleton t c ih =>
    rw [List.reverse_append, List.reverse_singleton, List.singleton_append]
    by_cases hc : c = '/'
    · subst hc
      rw [List.dropWhile_cons_of_pos rfl, ih, location_append_slash]
    · rw [List.dropWhile_cons_of_neg (by simpa using hc), List.reverse_cons, List.reverse_reverse]

end ArchSketch.Files.Path
