import ArchSketch.Proofs.Reply.Marker

/-! Replies with pairs of markers in prose. A start marker takes all up to the next end marker with
it, other start markers included. As long as the prose between the pairs starts none, the pairs are
found one by one, and where no fence holds anything the diagram is made of them. -/
namespace ArchSketch.Reply

open Text Diagram

variable {t last : List Char} {parts : List (List Char × MarkerPair)}

/-- Pairs of markers with the prose that comes before each. -/
def paired (parts : List (List Char × MarkerPair)) : List Char :=
  parts.flatMap fun p => p.1 ++ p.2.text

def HasPair (t : List Char) : Prop :=
  ∃ a w b, t = a ++ w ++ b ∧ w.map fold = openingMarker ∧ Mentions closingMarker b

theorem hasPair_iff : HasPair t ↔
    (t.tails.any fun r => (afterWord? openingMarker r).any (Mentions closingMarker ·)) = true := by
  simp only [List.any_eq_true, List.mem_tails, Option.any_eq_true, afterWord?_eq_some_iff,
    decide_eq_true_eq]
  constructor
  · intro h
    obtain ⟨a, w, b, rfl, hw, hb⟩ := h
    exact ⟨w ++ b, ⟨a, by simp⟩, b, ⟨w, rfl, hw⟩, hb⟩
  · intro h
    obtain ⟨r, ⟨a, rfl⟩, b, ⟨w, rfl, hw⟩, hb⟩ := h
    exact ⟨a, w, b, by simp, hw, hb⟩

instance : DecidablePred HasPair := fun _ => decidable_of_iff _ hasPair_iff.symm

theorem markedBlocks_of_not_hasPair (h : ¬ HasPair t) : markedBlocks t = [] := by
  apply blocksFrom_eq_nil
  intro r hr
  rw [Option.eq_none_iff_forall_not_mem]
  intro block hblock
  obtain ⟨p, -, hp⟩ := marked?_eq_some_iff.1 hblock
  obtain ⟨a, ha⟩ := hr
  apply h
  refine ⟨a, p.opening, p.body ++ p.closing ++ block.2, ?_, p.fold_opening, ?_⟩
  · simp [← ha, hp, MarkerPair.text]
  · exact mentions_of_eq_append rfl p.fold_closing

theorem markedBlocks_paired (hprose : ∀ p ∈ parts, ¬ Mentions openingMarker p.1)
    (hlast : ¬ HasPair last) :
    markedBlocks (paired parts ++ last) = (parts.map (·.2)).map MarkerPair.text := by
  induction parts with
  | nil => exact markedBlocks_of_not_hasPair hlast
  | cons p parts ih =>
    obtain ⟨hp, hparts⟩ := List.forall_mem_cons.1 hprose
    have hsplit : paired (p :: parts) ++ last = p.1 ++ (p.2.text ++ (paired parts ++ last)) := by
      simp [paired]
    have hsign : (p.2.text ++ (paired parts ++ last)).head? = some '@' := by
      obtain ⟨v, hv⟩ := p.2.exists_sign
      simp [hv]
    rw [hsplit, markedBlocks_prose hp (.inr hsign), markedBlocks_text, ih hparts]
    rfl

end ArchSketch.Reply

namespace ArchSketch

open Text Diagram Reply

/-- Where no fence holds anything, the diagram of a reply is made of its pairs of markers: all of
them, in their order and as they stand, with a line feed after each. Only a reply without a pair
has no diagram, and then it is an explanation as a whole. -/
theorem source_of_pairs {parts : List (List Char × MarkerPair)} {last : List Char}
    (hfences : ∀ b ∈ fencedBlocks (paired parts ++ last), ∀ c ∈ b, isBlank c = true)
    (hprose : ∀ p ∈ parts, ¬ Mentions openingMarker p.1) (hlast : ¬ HasPair last) :
    let result := extract (String.ofList (paired parts ++ last))
    result.source = String.ofList (parts.flatMap fun p => p.2.text ++ ['\n']) ∧
      (result.source = "" ↔ parts = []) ∧
      (result.source = "" →
        result.explanation = String.ofList (trim (paired parts ++ last))) := by
  intro result
  have hsource : source (paired parts ++ last) = parts.flatMap fun p => p.2.text ++ ['\n'] := by
    rw [source_eq_marked (joinBlocks_eq_nil_iff.2 hfences), markedBlocks_paired hprose hlast,
      joinBlocks_map_text, List.map_map, List.flatMap_map]
    rfl
  have hresult : result.source = String.ofList (source (paired parts ++ last)) := by
    simp [result, source_extract]
  rw [hresult, hsource, String.ofList_eq_empty_iff]
  refine ⟨rfl, ?_, ?_⟩
  · cases parts <;> simp
  · intro hnil
    simp only [result, extract_of_source_eq_nil (hsource.trans hnil)]

/-- Pairs with start markers inside, one of them in odd letters. Around them stand a fence that
holds nothing, an end marker and half a marker. -/
def shopPairs : List (List Char × MarkerPair) :=
  [("```c4\n \n```@enduml @start".toList,
    .ofParts "@ſtartUML".toList "x @startuml @end".toList "@EndUml".toList),
   (" and ```\n".toList, .ofParts "@startuml".toList "\n".toList "@enduml".toList)]

def shopRest : List Char := "@enduml @startuml @end".toList

theorem source_of_shopPairs :
    (∀ b ∈ fencedBlocks (paired shopPairs ++ shopRest), ∀ c ∈ b, isBlank c = true) ∧
      (∀ p ∈ shopPairs, ¬ Mentions openingMarker p.1) ∧ ¬ HasPair shopRest ∧
      (extract (String.ofList (paired shopPairs ++ shopRest))).source =
        "@ſtartUMLx @startuml @end@EndUml\n@startuml\n@enduml\n" := by
  have hblank : fencedBlocks (paired shopPairs ++ shopRest) = [" \n".toList] := by decide +kernel
  have hfences : ∀ b ∈ fencedBlocks (paired shopPairs ++ shopRest), ∀ c ∈ b, isBlank c = true := by
    rw [hblank]
    simp [isBlank]
  have hprose : ∀ p ∈ shopPairs, ¬ Mentions openingMarker p.1 := by decide +kernel
  have hlast : ¬ HasPair shopRest := by decide +kernel
  refine ⟨hfences, hprose, hlast, (source_of_pairs hfences hprose hlast).1.trans ?_⟩
  decide +kernel

end ArchSketch
