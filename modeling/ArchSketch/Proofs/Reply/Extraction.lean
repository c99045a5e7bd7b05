import ArchSketch.Proofs.Text.Trim
import ArchSketch.Reply.Extraction

/-! The diagram of a reply. Blank blocks are left out when blocks are joined, so a reply either
yields something to draw or no source at all. -/
namespace ArchSketch

open Text

namespace Reply

theorem isEmpty_trim (t : List Char) : (trim t).isEmpty = !t.any (!isBlank ·) := by
  rw [Bool.eq_iff_iff, List.isEmpty_iff, trim_eq_nil_iff]
  simp

theorem joinBlocks_eq (blocks : List (List Char)) :
    joinBlocks blocks = (blocks.filter (·.any (!isBlank ·))).flatMap (trim · ++ ['\n']) := by
  rw [joinBlocks, List.filter_map, List.flatMap_map]
  congr 1
  exact List.filter_congr fun b _ => by simp [isEmpty_trim]

theorem joinBlocks_cons (b : List Char) (blocks : List (List Char)) :
    joinBlocks (b :: blocks) =
      (if b.any (!isBlank ·) then trim b ++ ['\n'] else []) ++ joinBlocks blocks := by
  rw [joinBlocks_eq, joinBlocks_eq, List.filter_cons]
  split <;> rfl

theorem joinBlocks_eq_nil_iff {blocks : List (List Char)} :
    joinBlocks blocks = [] ↔ ∀ b ∈ blocks, ∀ c ∈ b, isBlank c = true := by
  induction blocks with
  | nil => simp [joinBlocks]
  | cons b blocks ih =>
    rw [joinBlocks_cons, List.append_eq_nil_iff, ih, List.forall_mem_cons]
    simp

theorem exists_not_isBlank_joinBlocks {blocks : List (List Char)} (h : joinBlocks blocks ≠ []) :
    ∃ c ∈ joinBlocks blocks, isBlank c = false := by
  obtain ⟨line, hline⟩ : ∃ line, line ∈ (blocks.map trim).filter (!·.isEmpty) := by
    apply List.exists_mem_of_ne_nil
    intro hnil
    exact h (by rw [joinBlocks, hnil, List.flatMap_nil])
  obtain ⟨hmem, hne⟩ := List.mem_filter.1 hline
  obtain ⟨block, -, rfl⟩ := List.mem_map.1 hmem
  have htrim : ¬ trim (trim block) = [] := by simpa using hne
  rw [trim_eq_nil_iff] at htrim
  obtain ⟨c, hc, hblank⟩ : ∃ c ∈ trim block, isBlank c = false := by simpa using htrim
  exact ⟨c, List.mem_flatMap.2 ⟨_, hline, List.mem_append_left _ hc⟩, hblank⟩

theorem exists_not_isBlank_source {t : List Char} (h : source t ≠ []) :
    ∃ c ∈ source t, isBlank c = false := by
  obtain ⟨blocks, hjoin⟩ : ∃ blocks, source t = joinBlocks blocks := by
    unfold source
    split <;> exact ⟨_, rfl⟩
  rw [hjoin] at h ⊢
  exact exists_not_isBlank_joinBlocks h

theorem source_eq_fenced {t : List Char} (h : joinBlocks (fencedBlocks t) ≠ []) :
    source t = joinBlocks (fencedBlocks t) :=
  if_neg (by simpa using h)

theorem source_eq_marked {t : List Char} (h : joinBlocks (fencedBlocks t) = []) :
    source t = joinBlocks (markedBlocks t) :=
  if_pos (by simpa using h)

end Reply

theorem extract_of_source_eq_nil {t : List Char} (h : Reply.source t = []) :
    extract (String.ofList t) = ⟨String.ofList (trim t), ""⟩ := by
  unfold extract
  rw [String.toList_ofList, h]
  rfl

theorem extract_of_source_ne_nil {t : List Char} (h : Reply.source t ≠ []) :
    extract (String.ofList t) =
      ⟨String.ofList (Reply.explanation t), String.ofList (Reply.source t)⟩ := by
  unfold extract
  rw [String.toList_ofList]
  exact if_neg (by simpa using h)

theorem source_extract (reply : String) :
    (extract reply).source = String.ofList (Reply.source reply.toList) := by
  unfold extract
  dsimp only
  split
  next hempty => rw [List.isEmpty_iff.1 hempty, String.ofList_nil]
  next => rfl

theorem hasDiagram_extract (reply : String) :
    (extract reply).hasDiagram = true ↔ (extract reply).source ≠ "" := by
  rw [Extraction.hasDiagram, source_extract, String.toList_ofList, List.any_eq_true]
  constructor
  · rintro ⟨c, hc, -⟩ hempty
    simp [String.ofList_eq_empty_iff.1 hempty] at hc
  · intro hne
    obtain ⟨c, hc, hblank⟩ := Reply.exists_not_isBlank_source fun hnil => hne (by rw [hnil])
    exact ⟨c, hc, by simp [hblank]⟩

end ArchSketch
