import ArchSketch.Reply.Explanation

/-! A model's free-form reply, split into its explanation and its diagram. Every reply can be
split: one without a diagram is an explanation as a whole. -/
namespace ArchSketch

structure Extraction where
  explanation : String
  source : String
  deriving DecidableEq, Repr

def Extraction.hasDiagram (e : Extraction) : Bool := e.source.toList.any (!Text.isBlank ·)

def extract (reply : String) : Extraction :=
  let source := Reply.source reply.toList
  if source.isEmpty then ⟨String.ofList (Text.trim reply.toList), ""⟩
  else ⟨String.ofList (Reply.explanation reply.toList), String.ofList source⟩

end ArchSketch
