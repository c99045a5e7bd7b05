/-! The result of a design request. It has been drawn and has an artifact, or it has failed and
says why; there is no third way and no mixture. -/
namespace ArchSketch

structure Artifact where
  path : String
  filename : String
  deriving DecidableEq, Repr

inductive Verdict where
  | drawn (artifact : Artifact)
  | failed (message : String)
  deriving DecidableEq, Repr

structure Design where
  request : String
  explanation : String
  /-- Empty when no diagram was found. -/
  source : String
  verdict : Verdict
  clarificationNeeded : Bool
  deriving DecidableEq, Repr

namespace Verdict

def isDrawn : Verdict → Bool
  | drawn _ => true
  | failed _ => false

def artifact? : Verdict → Option Artifact
  | drawn artifact => some artifact
  | failed _ => none

def message? : Verdict → Option String
  | drawn _ => none
  | failed message => some message

end Verdict

inductive Conflict where
  | halfArtifact
  | drawnWithout
  | failedWithout
  deriving DecidableEq, Repr

namespace Conflict

def message : Conflict → String
  | halfArtifact => "diagramPath and diagramFilename must be set together"
  | drawnWithout => "a successful design needs a diagram and no error message"
  | failedWithout => "a failed design needs an error message and no diagram"

end Conflict

/-- The verdict that separately given parts describe. An artifact comes with both of its parts, a
success with an artifact alone, a failure with a message alone. -/
def Verdict.ofParts (path filename : Option String) (success : Bool) (message : Option String) :
    Except Conflict Verdict :=
  match path, filename, success, message with
  | some path, some filename, true, none => .ok (.drawn ⟨path, filename⟩)
  | none, none, false, some message => .ok (.failed message)
  | some _, none, _, _ => .error .halfArtifact
  | none, some _, _, _ => .error .halfArtifact
  | _, _, true, _ => .error .drawnWithout
  | _, _, false, _ => .error .failedWithout

namespace Design

def drawn (request explanation source : String) (artifact : Artifact) : Design :=
  ⟨request, explanation, source, .drawn artifact, false⟩

def failed (request explanation source message : String) (clarificationNeeded : Bool) : Design :=
  ⟨request, explanation, source, .failed message, clarificationNeeded⟩

end Design
end ArchSketch
