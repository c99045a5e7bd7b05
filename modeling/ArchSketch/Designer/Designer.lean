import ArchSketch.Conversation.Codec
import ArchSketch.Designer.Model
import ArchSketch.Diagram.Document
import ArchSketch.Render.Renderer
import ArchSketch.Reply.Extraction

/-! One design request from prompt to drawing: the model is asked, its reply split, the diagram
repaired and drawn. Whatever goes wrong on the way, there is a result that says so, and a turn for
the conversation. -/
namespace ArchSketch

inductive Outcome where
  | succeeded
  | noDiagramFound
  | renderFailed
  | modelFailed
  deriving DecidableEq, Repr

def Outcome.name : Outcome → String
  | succeeded => "succeeded"
  | noDiagramFound => "noDiagramFound"
  | renderFailed => "renderFailed"
  | modelFailed => "modelFailed"

structure DesignReply where
  outcome : Outcome
  result : Design
  turn : Turn
  deriving DecidableEq, Repr

namespace DesignReply

/-- A success presents its design; a reply without a diagram is passed on as it is, if there is
anything to it; all else is answered with what went wrong. -/
def turnFor (outcome : Outcome) (d : Design) : Turn :=
  match outcome with
  | .succeeded => Turn.presenting d.explanation d
  | .noDiagramFound =>
    if d.explanation.isEmpty then Turn.assistant (d.verdict.message?.getD "")
    else Turn.assistant d.explanation
  | _ => Turn.assistant (d.verdict.message?.getD "")

def of (outcome : Outcome) (d : Design) : DesignReply := ⟨outcome, d, turnFor outcome d⟩

def toJson (r : DesignReply) : Json.Value :=
  .object [("outcome", .text r.outcome.name), ("result", r.result.toJson), ("turn", r.turn.toJson)]

end DesignReply

def asksForMore (explanation : String) : Bool :=
  (Text.trimEnd explanation.toList).getLast? == some '?'

structure Session extends Workplace where
  asked : List (List Message) := []

def Session.atWork {α : Type} (act : StateM Workplace α) : StateM Session α := fun s =>
  let (a, w) := act.run s.toWorkplace
  (a, { s with toWorkplace := w })

structure Designer where
  model : Model
  renderer : Renderer

namespace Designer

def noDiagramMessage : String := "no diagram source found"

def ask (d : Designer) (prompt : List Message) : StateM Session (Except ModelError String) :=
  fun s => (d.model prompt, { s with asked := s.asked ++ [prompt] })

def design (d : Designer) (request : String) (history : Conversation) :
    StateM Session DesignReply := do
  match ← d.ask (Prompt.assemble request history) with
  | .error e =>
    let message := "model request failed: " ++ e.message
    return .of .modelFailed (.failed request message "" message false)
  | .ok reply =>
    let extraction := extract reply
    if extraction.hasDiagram then
      let source := normalize extraction.source
      match ← Session.atWork (d.renderer.file source) with
      | .ok artifact =>
        return .of .succeeded (.drawn request extraction.explanation source artifact)
      | .error e =>
        return .of .renderFailed (.failed request extraction.explanation source
          ("diagram rendering failed: " ++ e.message) false)
    else
      return .of .noDiagramFound (.failed request extraction.explanation "" noDiagramMessage
        (asksForMore extraction.explanation))

end Designer

def Designer.ofSettings (t : Transport) (m : Host.Machine) (s : Settings) : Designer :=
  ⟨Model.ofSettings t s.ai, Renderer.ofSettings m s.render⟩

end ArchSketch
