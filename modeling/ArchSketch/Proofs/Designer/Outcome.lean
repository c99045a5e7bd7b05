import ArchSketch.Designer.Designer
import ArchSketch.Proofs.Diagram.NormalForm
import ArchSketch.Proofs.Render.Renderer
import ArchSketch.Proofs.Reply.Extraction

/-! The four ways in which a design request ends. Which of them it is depends on what the model
answers and on what the renderer makes of it, and on nothing else; all that a reply says about
itself follows from the way in which it came about. -/
namespace ArchSketch

open Diagram

namespace Designer

variable {d : Designer} {request : String} {history : Conversation} {s after : Session}
  {reply : DesignReply}

/-- The reply to a request and the session after it, for each way in which a request ends. -/
inductive Ends (d : Designer) (request : String) (history : Conversation) (s : Session) :
    DesignReply → Session → Prop
  | modelFailed {e : ModelError} (hmodel : d.model (Prompt.assemble request history) = .error e) :
    Ends d request history s
      (.of .modelFailed (.failed request ("model request failed: " ++ e.message) ""
        ("model request failed: " ++ e.message) false))
      { s with asked := s.asked ++ [Prompt.assemble request history] }
  | noDiagramFound {text : String}
    (hmodel : d.model (Prompt.assemble request history) = .ok text)
    (hsource : (extract text).source = "") :
    Ends d request history s
      (.of .noDiagramFound (.failed request (extract text).explanation "" noDiagramMessage
        (asksForMore (extract text).explanation)))
      { s with asked := s.asked ++ [Prompt.assemble request history] }
  | renderFailed {text : String} {e : RenderFailure} {w : Workplace}
    (hmodel : d.model (Prompt.assemble request history) = .ok text)
    (hsource : (extract text).source ≠ "")
    (hfile : d.renderer.file (normalize (extract text).source) s.toWorkplace = (.error e, w)) :
    Ends d request history s
      (.of .renderFailed (.failed request (extract text).explanation
        (normalize (extract text).source) ("diagram rendering failed: " ++ e.message) false))
      ⟨w, s.asked ++ [Prompt.assemble request history]⟩
  | succeeded {text : String} {artifact : Artifact} {w : Workplace}
    (hmodel : d.model (Prompt.assemble request history) = .ok text)
    (hsource : (extract text).source ≠ "")
    (hfile : d.renderer.file (normalize (extract text).source) s.toWorkplace = (.ok artifact, w)) :
    Ends d request history s
      (.of .succeeded (.drawn request (extract text).explanation
        (normalize (extract text).source) artifact))
      ⟨w, s.asked ++ [Prompt.assemble request history]⟩

theorem design_ends (d : Designer) (request : String) (history : Conversation) (s : Session) :
    Ends d request history s ((d.design request history).run s).1
      ((d.design request history).run s).2 := by
  have hasked : (d.ask (Prompt.assemble request history)).run s =
    (d.model (Prompt.assemble request history),
      { s with asked := s.asked ++ [Prompt.assemble request history] }) := rfl
  unfold design
  rw [StateT.run_bind, hasked]
  dsimp only [bind]
  cases hmodel : d.model (Prompt.assemble request history) with
  | error e => exact .modelFailed hmodel
  | ok text =>
    dsimp only
    by_cases hdiagram : (extract text).hasDiagram = true
    · have hsource := (hasDiagram_extract text).1 hdiagram
      rw [if_pos hdiagram]
      dsimp only [StateT.run, StateT.bind, Session.atWork]
      rcases hfile : d.renderer.file (normalize (extract text).source) s.toWorkplace with
        ⟨e | artifact, w⟩
      · exact .renderFailed hmodel hsource hfile
      · exact .succeeded hmodel hsource hfile
    · have hsource := not_not.1 (mt (hasDiagram_extract text).2 hdiagram)
      rw [if_neg hdiagram]
      exact .noDiagramFound hmodel hsource

/-! What every ending has in common, and what tells the endings apart. -/

namespace Ends

theorem asked (h : Ends d request history s reply after) :
    after.asked = s.asked ++ [Prompt.assemble request history] := by
  cases h <;> rfl

theorem outcome_eq_modelFailed (h : Ends d request history s reply after) :
    reply.outcome = .modelFailed ↔
      ∃ e, d.model (Prompt.assemble request history) = .error e := by
  cases h <;> simp [DesignReply.of, *]

theorem outcome_eq_noDiagramFound (h : Ends d request history s reply after) :
    reply.outcome = .noDiagramFound ↔
      ∃ text, d.model (Prompt.assemble request history) = .ok text ∧
        (extract text).source = "" := by
  cases h <;> simp [DesignReply.of, *]

theorem outcome_eq_succeeded (h : Ends d request history s reply after) :
    reply.outcome = .succeeded ↔
      ∃ text artifact, d.model (Prompt.assemble request history) = .ok text ∧
        (extract text).source ≠ "" ∧
        (d.renderer.file (normalize (extract text).source) s.toWorkplace).1 = .ok artifact := by
  cases h <;> simp [DesignReply.of, *]

theorem outcome_eq_renderFailed (h : Ends d request history s reply after) :
    reply.outcome = .renderFailed ↔
      ∃ text e, d.model (Prompt.assemble request history) = .ok text ∧
        (extract text).source ≠ "" ∧
        (d.renderer.file (normalize (extract text).source) s.toWorkplace).1 = .error e := by
  cases h <;> simp [DesignReply.of, *]

theorem isSome_artifact? (h : Ends d request history s reply after) :
    reply.result.verdict.artifact?.isSome ↔ reply.outcome = .succeeded := by
  cases h <;> simp [DesignReply.of, Design.failed, Design.drawn, Verdict.artifact?]

theorem isSome_message? (h : Ends d request history s reply after) :
    reply.result.verdict.message?.isSome ↔ reply.outcome ≠ .succeeded := by
  cases h <;> simp [DesignReply.of, Design.failed, Design.drawn, Verdict.message?]

theorem request_result (h : Ends d request history s reply after) :
    reply.result.request = request := by
  cases h <;> rfl

theorem explanation_result (h : Ends d request history s reply after) {text : String}
    (hmodel : d.model (Prompt.assemble request history) = .ok text) :
    reply.result.explanation = (extract text).explanation := by
  cases h with
  | modelFailed hfailed => cases hfailed.symm.trans hmodel
  | noDiagramFound hreply | renderFailed hreply | succeeded hreply =>
    obtain rfl := Except.ok.inj (hreply.symm.trans hmodel)
    rfl

theorem source_result (h : Ends d request history s reply after) {text : String}
    (hmodel : d.model (Prompt.assemble request history) = .ok text)
    (hsource : (extract text).source ≠ "") :
    reply.result.source = normalize (extract text).source := by
  cases h with
  | modelFailed hfailed => cases hfailed.symm.trans hmodel
  | noDiagramFound hreply hempty =>
    obtain rfl := Except.ok.inj (hreply.symm.trans hmodel)
    contradiction
  | renderFailed hreply | succeeded hreply =>
    obtain rfl := Except.ok.inj (hreply.symm.trans hmodel)
    rfl

theorem clarification (h : Ends d request history s reply after)
    (hclarification : reply.result.clarificationNeeded = true) :
    reply.outcome = .noDiagramFound := by
  cases h with
  | noDiagramFound hmodel hsource => rfl
  | modelFailed | renderFailed | succeeded => cases hclarification

theorem drawing (h : Ends d request history s reply after)
    (houtcome : reply.outcome = .succeeded ∨ reply.outcome = .renderFailed) :
    after.drawn = s.drawn ++ [(reply.result.source, d.renderer.format)] ∧
      normalize reply.result.source = reply.result.source := by
  cases h with
  | modelFailed | noDiagramFound => simp [DesignReply.of] at houtcome
  | renderFailed hmodel hsource hfile | succeeded hmodel hsource hfile =>
    exact ⟨Renderer.drawn_of_file hfile, (Document.ofSource_isTidy _).normalize_render⟩

theorem untouched (h : Ends d request history s reply after)
    (houtcome : reply.outcome = .modelFailed ∨ reply.outcome = .noDiagramFound) :
    after.drawn = s.drawn ∧ after.disk = s.disk := by
  cases h with
  | modelFailed | noDiagramFound => exact ⟨rfl, rfl⟩
  | renderFailed | succeeded => simp [DesignReply.of] at houtcome

theorem turn (h : Ends d request history s reply after) :
    reply.turn.speaker = .assistant ∧
      reply.turn.design = if reply.outcome = .succeeded then some reply.result else none := by
  cases h with
  | modelFailed hmodel => exact ⟨rfl, rfl⟩
  | noDiagramFound hmodel hsource =>
    -- the text of the turn depends on the explanation, the rest of it does not
    dsimp only [DesignReply.of, DesignReply.turnFor]
    split <;> exact ⟨rfl, rfl⟩
  | renderFailed hmodel hsource hfile => exact ⟨rfl, rfl⟩
  | succeeded hmodel hsource hfile => exact ⟨rfl, rfl⟩

end Ends

/-- What holds of a reply to a request, and of the session after it, whatever happened. -/
structure IsConsistent (d : Designer) (request : String) (history : Conversation) (s : Session)
    (reply : DesignReply) (after : Session) : Prop where
  asked : after.asked = s.asked ++ [Prompt.assemble request history]
  modelFailed : reply.outcome = .modelFailed ↔
    ∃ e, d.model (Prompt.assemble request history) = .error e
  noDiagramFound : reply.outcome = .noDiagramFound ↔
    ∃ text, d.model (Prompt.assemble request history) = .ok text ∧ (extract text).source = ""
  succeeded : reply.outcome = .succeeded ↔
    ∃ text artifact, d.model (Prompt.assemble request history) = .ok text ∧
      (extract text).source ≠ "" ∧
      (d.renderer.file (normalize (extract text).source) s.toWorkplace).1 = .ok artifact
  renderFailed : reply.outcome = .renderFailed ↔
    ∃ text e, d.model (Prompt.assemble request history) = .ok text ∧
      (extract text).source ≠ "" ∧
      (d.renderer.file (normalize (extract text).source) s.toWorkplace).1 = .error e
  -- the backend is called for the two outcomes with a diagram, once, and not for the others
  drawing : reply.outcome = .succeeded ∨ reply.outcome = .renderFailed →
    after.drawn = s.drawn ++ [(reply.result.source, d.renderer.format)] ∧
      normalize reply.result.source = reply.result.source
  untouched : reply.outcome = .modelFailed ∨ reply.outcome = .noDiagramFound →
    after.drawn = s.drawn ∧ after.disk = s.disk
  artifact : reply.result.verdict.artifact?.isSome ↔ reply.outcome = .succeeded
  message : reply.result.verdict.message?.isSome ↔ reply.outcome ≠ .succeeded
  requestKept : reply.result.request = request
  explanationKept : ∀ text, d.model (Prompt.assemble request history) = .ok text →
    reply.result.explanation = (extract text).explanation
  sourceKept : ∀ text, d.model (Prompt.assemble request history) = .ok text →
    (extract text).source ≠ "" → reply.result.source = normalize (extract text).source
  clarification : reply.result.clarificationNeeded = true → reply.outcome = .noDiagramFound
  speaker : reply.turn.speaker = .assistant
  design : reply.turn.design = if reply.outcome = .succeeded then some reply.result else none

/-- Every request ends in one of the four ways, and what is returned fits the way it ended. -/
theorem design_isConsistent (d : Designer) (request : String) (history : Conversation)
    (s : Session) :
    IsConsistent d request history s ((d.design request history).run s).1
      ((d.design request history).run s).2 := by
  have h := d.design_ends request history s
  exact {
    asked := h.asked
    modelFailed := h.outcome_eq_modelFailed
    noDiagramFound := h.outcome_eq_noDiagramFound
    succeeded := h.outcome_eq_succeeded
    renderFailed := h.outcome_eq_renderFailed
    drawing := h.drawing
    untouched := h.untouched
    artifact := h.isSome_artifact?
    message := h.isSome_message?
    requestKept := h.request_result
    explanationKept := fun _ => h.explanation_result
    sourceKept := fun _ => h.source_result
    clarification := h.clarification
    speaker := h.turn.1
    design := h.turn.2 }

end Designer
end ArchSketch
