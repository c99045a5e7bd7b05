import ArchSketch.Proofs.Designer.Dialogue
import ArchSketch.Proofs.Reply.Quoting

/-! A design that was drawn, read back from the message it travels in. The message quotes the source
in a fence, as a model would write it, and nothing in the quotation is escaped. -/
namespace ArchSketch

open Text Diagram Reply

/-! What every repaired source has at its ends. -/

theorem Diagram.Document.openingMarker_prefix_render (d : Document) :
    openingMarker <+: d.render := by
  have hheading : openingMarker <+: d.heading := by
    unfold heading
    split
    · exact List.prefix_refl _
    · exact List.prefix_append _ _
  refine hheading.trans ?_
  rw [render, List.cons_append, List.cons_append, List.cons_append, unlines_cons (by simp)]
  exact List.prefix_append _ _

theorem openingMarker_prefix_normalize (source : String) :
    openingMarker <+: (normalize source).toList := by
  rw [normalize, String.toList_ofList]
  exact Document.openingMarker_prefix_render _

theorem trim_normalize (source : String) :
    trim (normalize source).toList = (normalize source).toList := by
  have hstart : trimStart (normalize source).toList = (normalize source).toList := by
    obtain ⟨rest, hrest⟩ := openingMarker_prefix_normalize source
    rw [← hrest]
    exact trimStart_append_of_noBlanks (by decide) noBlanks_openingMarker rest
  rw [trim, hstart, trimEnd_normalize]

def DesignReply.IsRecovered (r : DesignReply) : Prop :=
  (extract (Prompt.ofTurn r.turn).content).source = r.result.source ++ "\n"

instance : DecidablePred DesignReply.IsRecovered := fun _ => instDecidableEqString _ _

theorem DesignReply.isRecovered_iff {request explanation source : String} {artifact : Artifact}
    (hne : source ≠ "") (htrim : trimEnd source.toList = source.toList) :
    (of .succeeded (.drawn request explanation source artifact)).IsRecovered ↔
      Reply.source (quoted explanation.toList source.toList) = source.toList ++ ['\n'] := by
  have hcontent :
      (Prompt.ofTurn (of .succeeded (.drawn request explanation source artifact)).turn).content =
        explanation ++ "\n\n```plantuml\n" ++ source ++ "\n```" :=
    congrArg Message.content (Dialogue.ofTurn_presenting hne htrim _ _ _ _)
  have hquoted : (explanation ++ "\n\n```plantuml\n" ++ source ++ "\n```").toList =
      quoted explanation.toList source.toList := by
    simp [quoted, fence]
  rw [IsRecovered, hcontent, source_extract, hquoted, ← String.toList_inj, String.toList_ofList,
    String.toList_append]
  rfl

namespace Designer

variable {d : Designer} {request : String} {history : Conversation} {s after : Session}
  {reply : DesignReply}

theorem Ends.exists_drawn (h : Ends d request history s reply after)
    (houtcome : reply.outcome = .succeeded) : ∃ text artifact, (extract text).source ≠ "" ∧
      reply = .of .succeeded (.drawn request (extract text).explanation
        (normalize (extract text).source) artifact) := by
  cases h with
  | modelFailed | noDiagramFound | renderFailed => simp [DesignReply.of] at houtcome
  | succeeded hmodel hsource hfile => exact ⟨_, _, hsource, rfl⟩

/-- A drawn design is read back from the message it travels in unless its source holds three
backticks. Where the explanation ends in an opening of a fence, the message is read from the source
on, so the source is read back just when it is made of pairs of markers and has no fence that
holds anything. -/
theorem isRecovered_design (d : Designer) (request : String) (history : Conversation) (s : Session)
    (houtcome : ((d.design request history).run s).1.outcome = .succeeded) :
    let reply := ((d.design request history).run s).1
    let message := Prompt.ofTurn reply.turn
    let source := reply.result.source.toList
    message.role = .assistant ∧
      (∀ earlier later next, message ∈ Prompt.assemble next (earlier ++ reply.turn :: later)) ∧
      (¬ EndsOpen reply.result.explanation.toList →
        (reply.IsRecovered ↔ ¬ fence <:+: source)) ∧
      (EndsOpen reply.result.explanation.toList →
        (reply.IsRecovered ↔
          (∀ b ∈ fencedBlocks (source ++ "\n```".toList), ∀ c ∈ b, isBlank c = true) ∧
            ∃ pairs : List MarkerPair, source = unlines (pairs.map MarkerPair.text))) := by
  intro reply message source
  obtain ⟨text, artifact, hsource, hreply⟩ :=
    (d.design_ends request history s).exists_drawn houtcome
  have hreply : reply = .of .succeeded (.drawn request (extract text).explanation
    (normalize (extract text).source) artifact) := hreply
  clear_value reply
  subst hreply
  obtain ⟨hclear, hlast⟩ := explanation_edges hsource
  have hquoted : (DesignReply.of .succeeded (.drawn request (extract text).explanation
      (normalize (extract text).source) artifact)).IsRecovered ↔
        Reply.source (quoted (extract text).explanation.toList source) = source ++ ['\n'] :=
    DesignReply.isRecovered_iff (normalize_ne_empty _) (trimEnd_normalize _)
  rw [hquoted]
  refine ⟨rfl, fun earlier later next => ?_, fun hopen => ?_, fun hopen => ?_⟩
  · simp [Prompt.assemble, message]
  · -- the line feeds after the explanation could complete an opening, but only at its end
    have hopener : ¬ HasOpener ((extract text).explanation.toList ++ ['\n', '\n']) := by
      have hunopened := mt HasOpener.hasOpening hclear
      exact mt (endsOpen_of_hasOpener hunopened hlast) hopen
    exact source_quoted_of_not_hasOpener (openingMarker_prefix_normalize _) (trim_normalize _)
      hopener
  · have hne : source ≠ [] := fun hnil => normalize_ne_empty _ (String.toList_eq_nil_iff.1 hnil)
    rw [source_quoted_of_endsOpen hclear hopen, source_append_fence_iff hne]
    rfl

def answering (text : String) : Designer :=
  ⟨fun _ => .ok text, ⟨Backend.answering (.ok ⟨#[1]⟩), "out", .png⟩⟩

def freshSession : Session :=
  ⟨⟨⟨Files.Store.empty, []⟩,
    ⟨2023, 11, 12, 13, 14, 15, by decide, by decide, by decide, by decide, by decide⟩, []⟩, []⟩

def replyTo (text : String) : DesignReply :=
  (((answering text).design "Design a shop" []).run freshSession).1

def tickedReply : String := "A `shop`.\n```c4\nPerson(a, \"``A``\")\n```"

theorem isRecovered_tickedReply :
    (replyTo tickedReply).outcome = .succeeded ∧ (replyTo tickedReply).IsRecovered := by
  have houtcome : (replyTo tickedReply).outcome = .succeeded := by decide +kernel
  obtain ⟨-, -, hclosed, -⟩ :=
    isRecovered_design (answering tickedReply) "Design a shop" [] freshSession houtcome
  have hexplanation : (replyTo tickedReply).result.explanation = "A `shop`." := by decide +kernel
  have hopen : ¬ EndsOpen (replyTo tickedReply).result.explanation.toList := by
    rw [hexplanation]
    rintro ⟨gap, tag, -, -, hsuffix⟩
    have hfence : fence <:+: "A `shop`.".toList :=
      List.IsInfix.trans ⟨[], gap ++ tag, by simp⟩ hsuffix.isInfix
    revert hfence
    decide +kernel
  have hplain : ¬ fence <:+: (replyTo tickedReply).result.source.toList := by decide +kernel
  exact ⟨houtcome, (hclosed hopen).2 hplain⟩

/-- Between markers a source may hold a fence. -/
def fencedReply : String := "A shop.\n@startuml\n```\nPerson(a, \"A\")\n@enduml"

/-- A blank that is trimmed keeps the first opening from being one. -/
def openReply : String := "See ```plantuml\x0b\n```plantuml\nPerson(a, \"@enduml\")\n```"

/-- The quotation ends at the fence in the source. After an open end it is read by its markers, and
one inside a call ends it as well. -/
theorem not_isRecovered_fencedReply_openReply :
    ((replyTo fencedReply).outcome = .succeeded ∧ ¬ (replyTo fencedReply).IsRecovered) ∧
      (replyTo openReply).outcome = .succeeded ∧ ¬ (replyTo openReply).IsRecovered := by
  decide +kernel

end Designer
end ArchSketch
