import ArchSketch.Conversation.Codec
import ArchSketch.Proofs.Json.Record

/-! Conversations read back from the text they are stored as. A design is written in parts, of
which reading makes a verdict again, and every verdict passes its own check. So a conversation comes
back turn by turn as it was, whoever spoke and whatever the turns present. -/
namespace ArchSketch

open Json

theorem Verdict.ofParts_parts (v : Verdict) :
    Verdict.ofParts (v.artifact?.map (·.path)) (v.artifact?.map (·.filename)) v.isDrawn
      v.message? = .ok v := by
  cases v with
  | drawn artifact => rfl
  | failed message => rfl

theorem Json.Decoder.optional_text {s? : Option String} {v : Value}
    (hv : s?.map Value.text = some v) : Decoder.string.optional (Node.ofValue v) = .ok s? :=
  Decoder.optional_ofValue (fun _ => Node.noConfusion) (fun _ => rfl) hv

namespace Design

def member (d : Design) : Field → Option Value
  | .request => some (.text d.request)
  | .explanation => some (.text d.explanation)
  | .source => some (.text d.source)
  | .path => d.verdict.artifact?.map (.text ·.path)
  | .filename => d.verdict.artifact?.map (.text ·.filename)
  | .success => some (.bool d.verdict.isDrawn)
  | .message => d.verdict.message?.map .text
  | .clarification => some (.bool d.clarificationNeeded)

def fieldValue (d : Design) : (f : Field) → record.Value f
  | .request => d.request
  | .explanation => d.explanation
  | .source => d.source
  | .path => d.verdict.artifact?.map (·.path)
  | .filename => d.verdict.artifact?.map (·.filename)
  | .success => d.verdict.isDrawn
  | .message => d.verdict.message?
  | .clarification => d.clarificationNeeded

theorem decode_member (d : Design) (f : Field) (v : Value) (hv : d.member f = some v) :
    record.decode f (Node.ofValue v) = .ok (d.fieldValue f) := by
  cases f with
  | request | explanation | source | success | clarification =>
    obtain rfl := Option.some.inj hv
    rfl
  | path | filename =>
    apply Decoder.optional_text
    rw [← hv]
    exact Option.map_map ..
  | message => exact Decoder.optional_text hv

theorem absent_member (d : Design) (f : Field) (hf : d.member f = none) :
    record.absent f = some (d.fieldValue f) := by
  cases f with
  | request | explanation | source | success | clarification => cases hf
  | path | filename =>
    have hartifact := Option.map_eq_none_iff.1 hf
    simp only [fieldValue, hartifact]
    rfl
  | message =>
    have hmessage := Option.map_eq_none_iff.1 hf
    simp only [fieldValue, hmessage]
    rfl

theorem decode_toJson (d : Design) : decode (Node.ofValue d.toJson) = .ok d := by
  have hread : record.read (Node.ofValue d.toJson) = .ok d.fieldValue := by
    change record.read (Node.ofValue (.record (record.fields.map fun f =>
      (record.name f, d.member f)))) = _
    apply Record.read_record _ d.decode_member (by decide) d.absent_member
    intro f
    cases f <;> decide
  have hverdict : Verdict.ofParts (d.fieldValue .path) (d.fieldValue .filename)
      (d.fieldValue .success) (d.fieldValue .message) = .ok d.verdict := d.verdict.ofParts_parts
  unfold decode
  rw [hread]
  dsimp only [bind, Except.bind]
  rw [hverdict]
  rfl

end Design

theorem Speaker.decode_name (s : Speaker) :
    Speaker.decode (Node.ofValue (.text s.name)) = .ok s := by
  cases s <;> rfl

namespace Turn

def member (t : Turn) : Field → Option Value
  | .text => some (.text t.text)
  | .speaker => some (.text t.speaker.name)
  | .design => t.design.map Design.toJson

def fieldValue (t : Turn) (aliases : Field → List String) : (f : Field) → (record aliases).Value f
  | .text => t.text
  | .speaker => t.speaker
  | .design => t.design

/-- Second names for the fields make no difference to what was written under the first ones. -/
theorem read_toJson (t : Turn) {aliases : Field → List String}
    (hnames : ∀ f, (record aliases).field? ((record aliases).name f) = some f) :
    (record aliases).read (Node.ofValue t.toJson) = .ok (t.fieldValue aliases) := by
  change (record aliases).read (Node.ofValue (.record ((record aliases).fields.map fun f =>
    ((record aliases).name f, t.member f)))) = _
  apply Record.read_record hnames
  · intro f v hv
    cases f with
    | text =>
      obtain rfl := Option.some.inj hv
      rfl
    | speaker =>
      obtain rfl := Option.some.inj hv
      exact Speaker.decode_name _
    | design => exact Decoder.optional_ofValue (fun _ => Node.noConfusion) Design.decode_toJson hv
  · exact (by decide : [Field.text, .speaker, .design].Nodup)
  · intro f hf
    cases f with
    | text | speaker => cases hf
    | design =>
      have hdesign := Option.map_eq_none_iff.1 hf
      simp only [fieldValue, hdesign]
      rfl

theorem decode_toJson (t : Turn) : decode (Node.ofValue t.toJson) = .ok t := by
  unfold decode
  rw [t.read_toJson fun f => by cases f <;> decide]
  rfl

end Turn

namespace Conversation

theorem decode_toJson (c : Conversation) : decode (Node.ofValue c.toJson) = .ok c := by
  have h : Decoder.list Turn.decode (Node.ofValue c.toJson) = .ok (c.map fun t => t) :=
    Decoder.list_ofValue fun t _ => t.decode_toJson
  rwa [List.map_id'] at h

/-- A conversation is read back from its text as it was, from the stored text and from one that is
laid out with a member on each line. -/
theorem parse_store (c : Conversation) :
    parse c.store = .ok c ∧ parse c.toJson.indented = .ok c := by
  have hparse (l : Layout) : parse (String.ofList (c.toJson.write l 0)) = .ok c := by
    unfold parse
    rw [Decoder.run_write, decode_toJson]
  exact ⟨hparse .compact, hparse .indented⟩

end Conversation
end ArchSketch
