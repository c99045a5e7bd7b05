import ArchSketch.Conversation.Codec
import ArchSketch.Diagram.Level

/-! Calls of the tools that the program offers, and how they are read from a name and an object of
arguments. -/
namespace ArchSketch

open Json

structure HistoryItem where
  text : String
  speaker : Speaker
  design : Option Design
  deriving DecidableEq, Repr

namespace HistoryItem

def decode : Decoder HistoryItem := fun n => do
  let v ← (Turn.record fun _ => []).read n
  return ⟨v .text, v .speaker, v .design⟩

/-- Only an assistant presents designs. -/
def turn (i : HistoryItem) : Turn :=
  match i.speaker, i.design with
  | .user, _ => .user i.text
  | .assistant, some d => .presenting i.text d
  | .assistant, none => .assistant i.text

end HistoryItem

def historyTurns (items : List HistoryItem) : Conversation := items.map HistoryItem.turn

inductive ToolCall where
  | design (request : String) (history : Conversation)
  | extract (reply : String)
  | normalize (source : String)
  | render (source : String) (inImage : Bool)
  | template (systemName : String) (level : Option Level)
  | checkModel
  | getRules
  deriving DecidableEq, Repr

inductive CallError where
  | unknownTool (name : String)
  | invalidArguments (e : DecodeError)
  deriving DecidableEq, Repr

namespace Level

def decode : Decoder Level := Decoder.choice (all.map fun l => (l.name, l))

end Level

namespace ToolCall

def pairRecord {α : Type} (name second : String) (decode : Decoder α) : Record Bool where
  fields := [false, true]
  mem_fields f := by cases f <;> decide
  name f := if f then second else name
  aliases _ := []
  Value
    | false => String
    | true => Option α
  decode
    | false => Decoder.string
    | true => decode.optional
  absent
    | false => none
    | true => some none

def decodeDesign : Decoder ToolCall := fun n => do
  let v ← (pairRecord "request" "history" (Decoder.list HistoryItem.decode)).read n
  let history : Option (List HistoryItem) := v true
  return design (v false) (historyTurns (history.getD []))

def decodeRender : Decoder ToolCall := fun n => do
  let v ← (pairRecord "source" "inline" Decoder.flag).read n
  let inImage : Option Bool := v true
  return render (v false) (inImage.getD false)

def decodeTemplate : Decoder ToolCall := fun n => do
  let v ← (pairRecord "system_name" "kind" Level.decode).read n
  return template (v false) (v true)

def decodeText (name : String) (call : String → ToolCall) : Decoder ToolCall := fun n => do
  let v ← (Record.single name Decoder.string none).read n
  return call (v ())

/-- Tools without arguments take no notice of any. -/
def decoder? (tool : String) : Option (Decoder ToolCall) :=
  [("design", decodeDesign), ("extract", decodeText "reply" extract),
    ("normalize", decodeText "source" normalize), ("render", decodeRender),
    ("template", decodeTemplate), ("check_model", fun _ => .ok checkModel),
    ("get_rules", fun _ => .ok getRules)].lookup tool

def read (tool : String) (arguments : Node) : Except CallError ToolCall :=
  match decoder? tool with
  | none => .error (.unknownTool tool)
  | some decode => (decode arguments).mapError .invalidArguments

end ToolCall
end ArchSketch
