import ArchSketch.Proofs.Reply.Block
import ArchSketch.Proofs.Reply.Extraction

/-! Replies with tagged fences in prose. The prose may hold other fences, markers and broken tags:
as long as it opens no tagged fence itself, the fences are found one by one and the diagram is made
of their bodies in order. -/
namespace ArchSketch.Reply

open Text Diagram

variable {r s w lead : List Char} {parts : List (Fence × List Char)}

theorem IsOpener.eq_fence_append (h : IsOpener w) :
    ∃ c v, w = fence ++ c :: v ∧ '\x60' ∉ c :: v := by
  obtain ⟨gap, tag, stop, rfl, hgap, htag, hstop⟩ := h
  have hne : gap ++ tag ++ stop ≠ [] := by
    refine List.append_ne_nil_of_right_ne_nil _ ?_
    rintro rfl
    exact absurd hstop (by decide)
  have htick : '\x60' ∉ gap ++ tag ++ stop := by
    have hstops : ∀ stop ∈ [[' '], ['\t'], ['\n'], ['\r', '\n']], '\x60' ∉ stop := by decide
    simp only [List.mem_append, not_or]
    exact ⟨⟨backtick_not_mem_gap hgap, not_mem_of_map_fold htag (by decide)⟩, hstops _ hstop⟩
  obtain ⟨c, v, hv⟩ := List.exists_cons_of_ne_nil hne
  exact ⟨c, v, by rw [← hv]; simp, hv ▸ htick⟩

/-- An opening that starts in a text is not completed by a fence after the text. -/
theorem IsOpener.prefix_of_append (h : IsOpener w) (hw : w <+: r ++ s) (hr : r ≠ [])
    (hs : s = [] ∨ fence <+: s) : w <+: r := by
  obtain ⟨c, v, rfl, hv⟩ := h.eq_fence_append
  rcases hs with rfl | ⟨s, rfl⟩
  · simpa using hw
  have hc : '\x60' ≠ c := List.ne_of_not_mem_cons hv
  have hticks : '\x60' :: '\x60' :: '\x60' :: c :: v <+: r ++ '\x60' :: '\x60' :: '\x60' :: s := hw
  rcases r with _ | ⟨x, _ | ⟨y, _ | ⟨z, r⟩⟩⟩
  · exact absurd rfl hr
  · simp [hc.symm] at hticks
  · simp [hc.symm] at hticks
  · simp only [List.cons_append, List.cons_prefix_cons] at hticks
    obtain ⟨rfl, rfl, rfl, hprefix⟩ := hticks
    exact (List.prefix_append_right_inj fence).2 (prefix_of_prefix_append_cons hv hprefix)

theorem fencedBlocks_prose (hlead : ¬ HasOpener lead) (hs : s = [] ∨ fence <+: s) :
    fencedBlocks (lead ++ s) = fencedBlocks s := by
  refine blocksFrom_unopened exists_opener_of_fenced? fun a r hlead' hr => ?_
  rintro ⟨w, hw, hprefix⟩
  have hwr := hw.prefix_of_append hprefix hr hs
  exact hlead ⟨w, hw, hwr.isInfix.trans ⟨a, [], by simp [hlead']⟩⟩

def written (parts : List (Fence × List Char)) : List Char :=
  parts.flatMap fun p => p.1.text ++ p.2

theorem written_eq_nil_or_fence (parts : List (Fence × List Char)) :
    written parts = [] ∨ fence <+: written parts := by
  cases parts with
  | nil => exact .inl rfl
  | cons p ps =>
    rw [written, List.flatMap_cons, List.append_assoc]
    exact .inr (p.1.prefix_text _)

theorem fencedBlocks_written (hlead : ¬ HasOpener lead)
    (hprose : ∀ p ∈ parts, ¬ HasOpener p.2) :
    fencedBlocks (lead ++ written parts) = parts.map (·.1.body) := by
  induction parts generalizing lead with
  | nil => exact fencedBlocks_prose hlead (.inl rfl)
  | cons p ps ih =>
    obtain ⟨hp, hps⟩ := List.forall_mem_cons.1 hprose
    have hwritten : written (p :: ps) = p.1.text ++ (p.2 ++ written ps) := by simp [written]
    rw [fencedBlocks_prose hlead (written_eq_nil_or_fence _), hwritten, fencedBlocks_text,
      ih hp hps, List.map_cons]

theorem source_written (hlead : ¬ HasOpener lead) (hprose : ∀ p ∈ parts, ¬ HasOpener p.2)
    (hbody : ∃ p ∈ parts, ∃ c ∈ p.1.body, isBlank c = false) :
    source (lead ++ written parts) = (parts.filter fun p => p.1.body.any (!isBlank ·)).flatMap
      fun p => trim p.1.body ++ ['\n'] := by
  have hjoin : joinBlocks (fencedBlocks (lead ++ written parts)) =
      (parts.filter fun p => p.1.body.any (!isBlank ·)).flatMap
        fun p => trim p.1.body ++ ['\n'] := by
    rw [fencedBlocks_written hlead hprose, joinBlocks_eq, List.filter_map, List.flatMap_map]
    rfl
  have hne : joinBlocks (fencedBlocks (lead ++ written parts)) ≠ [] := by
    obtain ⟨p, hp, c, hc, hblank⟩ := hbody
    rw [hjoin, Ne, List.flatMap_eq_nil_iff]
    intro hnil
    have hmem : p ∈ parts.filter fun p => p.1.body.any (!isBlank ·) :=
      List.mem_filter.2 ⟨hp, List.any_eq_true.2 ⟨c, hc, by simp [hblank]⟩⟩
    simpa using hnil p hmem
  rw [source_eq_fenced hne, hjoin]

theorem source_append_fence {tag d rest : List Char} (hlead : ¬ HasOpener lead)
    (htag : tag.map fold ∈ tags) (hplain : ¬ fence <:+: d) (hdrawn : ∃ c ∈ d, isBlank c = false)
    (hrest : '\x60' ∉ rest) :
    source (lead ++ (fence ++ tag ++ '\n' :: (d ++ '\n' :: fence)) ++ rest) = trim d ++ ['\n'] := by
  let f : Fence :=
    { gap := [], tag, info := [], lineEnd := ['\n'], body := d ++ ['\n'], tag_mem := htag
      plain_body := fun h => (infix_of_infix_append_cons (by decide) h).elim hplain (by decide)
      end_body := by simp }
  obtain ⟨c, hc, hblank⟩ := hdrawn
  have hbody : c ∈ f.body := List.mem_append_left _ hc
  have htext : lead ++ (fence ++ tag ++ '\n' :: (d ++ '\n' :: fence)) ++ rest =
      lead ++ written [(f, rest)] := by simp [written, Fence.text, f]
  have htrim : trim (d ++ ['\n']) = trim d :=
    trim_append_blanks (v := []) (w := ['\n']) (by simp) (by simp; rfl) d
  rw [htext, source_written hlead (by simpa using not_hasOpener_of_not_mem hrest)
    ⟨_, List.mem_singleton_self _, c, hbody, hblank⟩, List.filter_cons_of_pos]
  · simpa [f] using htrim
  · exact List.any_eq_true.2 ⟨c, hbody, by simp [hblank]⟩

end ArchSketch.Reply

namespace ArchSketch

open Text Reply

/-- Whatever else the prose of a reply holds, its diagram is made of the bodies of its fences: all
that are not blank, in their order, trimmed and with a line feed after each. -/
theorem source_of_fences {lead : List Char} {parts : List (Fence × List Char)}
    (hlead : ¬ HasOpener lead) (hprose : ∀ p ∈ parts, ¬ HasOpener p.2)
    (hbody : ∃ p ∈ parts, ∃ c ∈ p.1.body, isBlank c = false) :
    (extract (String.ofList (lead ++ written parts))).source =
      String.ofList ((parts.filter fun p => p.1.body.any (!isBlank ·)).flatMap
        fun p => trim p.1.body ++ ['\n']) := by
  rw [source_extract, String.toList_ofList, source_written hlead hprose hbody]

/-- A fence with text after its tag and line ends of two characters, a blank one, and one with
backticks in its body; after each of them stands prose that comes close to a fence. -/
def shopFences : List (Fence × List Char) :=
  [({ gap := " ".toList, tag := "PlantUML".toList, info := " title=```shop".toList,
      lineEnd := "\r\n".toList,
      body := "@startuml\r\nPerson(a, \"A\")\r\n@enduml\n".toList },
    "plantuml\n```plantumlx\n``` json\n@startuml\n@enduml```".toList),
   ({ gap := [], tag := "c4".toList, info := [], lineEnd := "\n".toList,
      body := " \t\n".toList }, "`".toList),
   ({ gap := [], tag := "C4PlantUML".toList, info := [], lineEnd := "\n".toList,
      body := "``System(s, \"`S``\")\n".toList }, "```c4".toList)]

theorem source_of_shopFences :
    ¬ HasOpener "Two parts. @startuml\nX\n@enduml ``".toList ∧
      (∀ p ∈ shopFences, ¬ HasOpener p.2) ∧
      (∃ p ∈ shopFences, ∃ c ∈ p.1.body, isBlank c = false) ∧
      (extract (String.ofList
          ("Two parts. @startuml\nX\n@enduml ``".toList ++ written shopFences))).source =
        "@startuml\r\nPerson(a, \"A\")\r\n@enduml\n``System(s, \"`S``\")\n" := by
  have hlead : ¬ HasOpener "Two parts. @startuml\nX\n@enduml ``".toList := by decide +kernel
  have hprose : ∀ p ∈ shopFences, ¬ HasOpener p.2 := by decide +kernel
  have hbody : ∃ p ∈ shopFences, ∃ c ∈ p.1.body, isBlank c = false :=
    ⟨_, List.mem_cons_self, '@', List.mem_cons_self, by decide⟩
  refine ⟨hlead, hprose, hbody, (source_of_fences hlead hprose hbody).trans ?_⟩
  decide +kernel

end ArchSketch
