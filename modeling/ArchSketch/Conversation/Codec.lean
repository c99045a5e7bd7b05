import ArchSketch.Conversation.Turn
import ArchSketch.Json.Record

/-! Conversations as JSON. Writing leaves out what is absent; reading takes the members of an
object in any order, knows some of them by a second name, and checks that the parts of a design go
together. -/
namespace ArchSketch

open Json

namespace Design

def toJson (d : Design) : Value :=
  .record [("userRequest", some (.text d.request)), ("explanation", some (.text d.explanation)),
    ("diagramSource", some (.text d.source)),
    ("diagramPath", d.verdict.artifact?.map (.text ·.path)),
    ("diagramFilename", d.verdict.artifact?.map (.text ·.filename)),
    ("success", some (.bool d.verdict.isDrawn)), ("errorMessage", d.verdict.message?.map .text),
    ("clarificationNeeded", some (.bool d.clarificationNeeded))]

inductive Field where
  | request
  | explanation
  | source
  | path
  | filename
  | success
  | message
  | clarification
  deriving DecidableEq, Repr

def record : Record Field where
  fields := [.request, .explanation, .source, .path, .filename, .success, .message, .clarification]
  mem_fields f := by cases f <;> decide
  name
    | .request => "userRequest"
    | .explanation => "explanation"
    | .source => "diagramSource"
    | .path => "diagramPath"
    | .filename => "diagramFilename"
    | .success => "success"
    | .message => "errorMessage"
    | .clarification => "clarificationNeeded"
  aliases
    | .source => ["plantUmlCode"]
    | _ => []
  Value
    | .request | .explanation | .source => String
    | .path | .filename | .message => Option String
    | .success | .clarification => Bool
  decode
    | .request | .explanation | .source => Decoder.string
    | .path | .filename | .message => Decoder.string.optional
    | .success | .clarification => Decoder.flag
  absent
    | .request | .success => none
    | .explanation | .source => some ""
    | .path | .filename | .message => some none
    | .clarification => some false

def decode : Decoder Design := fun n => do
  let v ← record.read n
  match Verdict.ofParts (v .path) (v .filename) (v .success) (v .message) with
  | .ok verdict =>
    .ok ⟨v .request, v .explanation, v .source, verdict, v .clarification⟩
  | .error conflict => .error (.inconsistent conflict.message)

end Design

namespace Speaker

def name : Speaker → String
  | user => "USER"
  | assistant => "ASSISTANT"

def decode : Decoder Speaker :=
  Decoder.choice [("USER", user), ("user", user), ("ASSISTANT", assistant),
    ("assistant", assistant)]

end Speaker

namespace Turn

def toJson (t : Turn) : Value :=
  .record [("text", some (.text t.text)), ("speaker", some (.text t.speaker.name)),
    ("design", t.design.map Design.toJson)]

inductive Field where
  | text
  | speaker
  | design
  deriving DecidableEq, Repr

def record (aliases : Field → List String) : Record Field where
  fields := [.text, .speaker, .design]
  mem_fields f := by cases f <;> decide
  name
    | .text => "text"
    | .speaker => "speaker"
    | .design => "design"
  aliases
  Value
    | .text => String
    | .speaker => Speaker
    | .design => Option Design
  decode
    | .text => Decoder.string
    | .speaker => Speaker.decode
    | .design => Design.decode.optional
  absent
    | .design => some none
    | _ => none

/-- Stored turns may call the text a message and the speaker a sender. -/
def storedAliases : Field → List String
  | .text => ["message"]
  | .speaker => ["sender"]
  | .design => []

def decode : Decoder Turn := fun n => do
  let v ← (record storedAliases).read n
  return ⟨v .text, v .speaker, v .design⟩

end Turn

namespace Conversation

def toJson (c : Conversation) : Value := .array (c.map Turn.toJson)

def decode : Decoder Conversation := Decoder.list Turn.decode

def store (c : Conversation) : String := c.toJson.compact

def parse (text : String) : Except DecodeError Conversation := Decoder.run decode text

end Conversation
end ArchSketch
