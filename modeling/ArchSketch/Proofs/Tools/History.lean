import ArchSketch.Proofs.Conversation.Codec
import ArchSketch.Proofs.Designer.Outcome
import ArchSketch.Tools.Request

/-! Conversations that a caller of the tools keeps. The turns go out as a stored conversation has
them and come back as items of another type, which has no place for a design that a user presents.
No turn of a conversation with a designer is of that kind, so none is changed on the way. -/
namespace ArchSketch

open Json

namespace HistoryItem

def ofTurn (t : Turn) : HistoryItem := ⟨t.text, t.speaker, t.design⟩

theorem decode_toJson (t : Turn) : decode (Node.ofValue t.toJson) = .ok (ofTurn t) := by
  unfold decode
  rw [t.read_toJson fun f => by cases f <;> decide]
  rfl

theorem turn_ofTurn {t : Turn} (h : t.speaker = .user → t.design = none) : (ofTurn t).turn = t := by
  obtain ⟨text, speaker, design⟩ := t
  cases speaker with
  | user =>
    obtain rfl : design = none := h rfl
    rfl
  | assistant => cases design <;> rfl

theorem decode_compact (t : Turn) :
    Decoder.run decode t.toJson.compact = .ok (ofTurn t) :=
  (Decoder.run_write decode t.toJson .compact).trans (decode_toJson t)

end HistoryItem

/-- A turn of a conversation between a user and a designer. -/
inductive Turn.IsSpoken : Turn → Prop
  | user (text : String) : IsSpoken (.user text)
  | returned (d : Designer) (request : String) (history : Conversation) (s : Session) :
    IsSpoken ((d.design request history).run s).1.turn

theorem Turn.IsSpoken.design_eq_none {t : Turn} (h : t.IsSpoken) (hspeaker : t.speaker = .user) :
    t.design = none := by
  cases h with
  | user text => rfl
  | returned d request history s =>
    rw [(d.design_ends request history s).turn.1] at hspeaker
    contradiction

theorem historyTurns_map_ofTurn {turns : Conversation} (h : ∀ t ∈ turns, t.IsSpoken) :
    historyTurns (turns.map HistoryItem.ofTurn) = turns := by
  rw [historyTurns, List.map_map]
  refine (List.map_congr_left fun t ht => ?_).trans (List.map_id turns)
  exact HistoryItem.turn_ofTurn (h t ht).design_eq_none

namespace ToolCall

def pairValue {α : Type} (name second : String) (decode : Decoder α) (text : String)
    (a? : Option α) : (f : Bool) → (pairRecord name second decode).Value f
  | false => text
  | true => a?

theorem read_pairRecord {α : Type} {name second : String} (hname : second ≠ name)
    {decode : Decoder α} {v : Value} {a? : Option α}
    (hv : decode.optional (Node.ofValue v) = .ok a?) (text : String) :
    (pairRecord name second decode).read
      (Node.ofValue (.object [(name, .text text), (second, v)])) =
      .ok (pairValue name second decode text a?) := by
  -- both members are there, so nothing is asked of what is read for an absent one
  let member (f : Bool) : Option Value := some (if f then v else .text text)
  change (pairRecord name second decode).read (Node.ofValue (.record
    ((pairRecord name second decode).fields.map fun f =>
      ((pairRecord name second decode).name f, member f)))) = _
  apply Record.read_record
  · intro f
    cases f <;> simp [Record.field?, pairRecord, hname]
  · intro f w hw
    obtain rfl := Option.some.inj hw
    cases f with
    | false => rfl
    | true => exact hv
  · exact (by decide : [false, true].Nodup)
  · intro f hf
    cases hf

def designArguments (request : String) (history : Conversation) : Value :=
  .object [("request", .text request), ("history", .array (history.map Turn.toJson))]

theorem read_designArguments {history : Conversation} (h : ∀ t ∈ history, t.IsSpoken)
    (request : String) :
    read "design" (Node.ofValue (designArguments request history)) =
      .ok (design request history) := by
  have hitems : (Decoder.list HistoryItem.decode).optional
      (Node.ofValue (.array (history.map Turn.toJson))) =
      .ok (some (history.map HistoryItem.ofTurn)) :=
    congrArg (Except.map some) (Decoder.list_ofValue fun t _ => HistoryItem.decode_toJson t)
  have hread : (pairRecord "request" "history" (Decoder.list HistoryItem.decode)).read
      (Node.ofValue (designArguments request history)) =
      .ok (pairValue _ _ _ request (some (history.map HistoryItem.ofTurn))) :=
    read_pairRecord (by decide) hitems request
  have hhistory := historyTurns_map_ofTurn h
  change (decodeDesign _).mapError CallError.invalidArguments = _
  unfold decodeDesign
  rw [hread]
  exact congrArg (fun history => Except.ok (design request history)) hhistory

end ToolCall

/-- The turns of a conversation come back from the texts that are sent for them, alone and as the
arguments of a call, so a model is told the same whether the conversation was sent or kept. -/
theorem historyTurns_sent {turns : Conversation} (h : ∀ t ∈ turns, t.IsSpoken) :
    ∃ items, turns.mapM (fun t => Decoder.run HistoryItem.decode t.toJson.compact) = .ok items ∧
      historyTurns items = turns ∧
      ∀ request, Prompt.assemble request (historyTurns items) = Prompt.assemble request turns ∧
        ToolCall.read "design" (Node.ofValue (ToolCall.designArguments request turns)) =
          .ok (.design request turns) := by
  have hturns := historyTurns_map_ofTurn h
  refine ⟨turns.map HistoryItem.ofTurn, ?_, hturns, fun request => ⟨by rw [hturns], ?_⟩⟩
  · exact mapM_eq_ok fun t _ => HistoryItem.decode_compact t
  · exact ToolCall.read_designArguments h request

def shopDesigner : Designer :=
  ⟨fun _ => .ok "A shop.\n```plantuml\nPerson(a, \"A\")\n```",
    ⟨Backend.answering (.ok ⟨#[1]⟩), "out", .png⟩⟩

def shopSession : Session :=
  ⟨⟨⟨Files.Store.empty, []⟩,
    ⟨2024, 1, 2, 3, 4, 5, by decide, by decide, by decide, by decide, by decide⟩, []⟩, []⟩

def shopTurns : Conversation :=
  [.user "Design a shop",
    .presenting "A shop." (.drawn "Design a shop" "A shop."
      "@startuml
!include <C4/C4_Context>
LAYOUT_WITH_LEGEND()
HIDE_STEREOTYPE()
Person(a, \"A\")
@enduml"
      ⟨"out/diagram_20240102_030405.png", "diagram_20240102_030405.png"⟩)]

theorem historyTurns_sent_shop :
    (∀ t ∈ shopTurns, t.IsSpoken) ∧
    ∃ items, shopTurns.mapM (fun t => Decoder.run HistoryItem.decode t.toJson.compact) =
        .ok items ∧
      historyTurns items = shopTurns ∧
      ∀ request, Prompt.assemble request (historyTurns items) =
          Prompt.assemble request shopTurns ∧
        ToolCall.read "design" (Node.ofValue (ToolCall.designArguments request shopTurns)) =
          .ok (.design request shopTurns) := by
  have hturns : shopTurns = [.user "Design a shop",
      ((shopDesigner.design "Design a shop" []).run shopSession).1.turn] := by
    decide +kernel
  have hspoken : ∀ t ∈ shopTurns, t.IsSpoken := by
    rw [hturns]
    simp only [List.mem_cons, List.not_mem_nil, or_false]
    rintro t (rfl | rfl)
    · exact .user _
    · exact .returned ..
  exact ⟨hspoken, historyTurns_sent hspoken⟩

end ArchSketch
