import ArchSketch.Conversation.Prompt
import ArchSketch.Proofs.Json.Record
import ArchSketch.Tools.Request

/-! What a model is told that users said. Turns that are made one by one, or sent back by a caller
of the tools, let no user present a design, so users are quoted word for word. A stored conversation
may have a user present one. If that was drawn, its source goes out under the user's name. -/
namespace ArchSketch

open Json

theorem Json.Decoder.forall_mem_list {α : Type} {d : Decoder α} {items : List Node} {as : List α}
    (h : items.mapM d = .ok as) (P : α → Prop) :
    (∀ a ∈ as, P a) ↔ ∀ item ∈ items, ∀ a, d item = .ok a → P a := by
  induction items generalizing as with
  | nil =>
    obtain rfl := Except.ok.inj h
    simp
  | cons item items ih =>
    rw [List.mapM_cons, bind_eq_ok] at h
    obtain ⟨a, ha, h⟩ := h
    obtain ⟨as, has, h⟩ := bind_eq_ok.1 h
    obtain rfl := Except.ok.inj h
    simp [ih has, ha]

namespace Turn

/-- The source of the design that a turn presents, if that was drawn. -/
def drawing? (t : Turn) : Option String :=
  t.design.bind fun d => if d.verdict.isDrawn && !d.source.isEmpty then some d.source else none

theorem drawing?_eq_none_iff {t : Turn} :
    t.drawing? = none ↔ ∀ d, t.design = some d → d.verdict.isDrawn = true → d.source = "" := by
  simp [drawing?, Option.bind_eq_none_iff]

inductive IsMade : Turn → Prop
  | user (text : String) : IsMade (.user text)
  | assistant (text : String) : IsMade (.assistant text)
  | presenting (text : String) (design : Design) : IsMade (.presenting text design)

theorem IsMade.drawing?_eq_none {t : Turn} (h : t.IsMade) (hspeaker : t.speaker = .user) :
    t.drawing? = none := by
  cases h with
  | user text => rfl
  | assistant text => cases hspeaker
  | presenting text design => cases hspeaker

/-- An item of a stored conversation in which a user presents a drawn design. -/
def IsUsersDrawing (item : Node) : Prop :=
  ∃ v d, (record storedAliases).read item = .ok v ∧ v .speaker = .user ∧ v .design = some d ∧
    d.verdict.isDrawn = true ∧ d.source ≠ ""

theorem not_isUsersDrawing_iff (item : Node) :
    ¬ IsUsersDrawing item ↔
      ∀ t, decode item = .ok t → t.speaker = .user → t.drawing? = none := by
  constructor
  · intro h t ht hspeaker
    obtain ⟨v, hv, hturn⟩ := bind_eq_ok.1 ht
    obtain rfl := Except.ok.inj hturn
    refine drawing?_eq_none_iff.2 fun d hd hdrawn => ?_
    by_contra hsource
    exact h ⟨v, d, hv, hspeaker, hd, hdrawn, hsource⟩
  · rintro h ⟨v, d, hv, hspeaker, hd, hdrawn, hsource⟩
    have ht : decode item = .ok ⟨v .text, v .speaker, v .design⟩ := bind_eq_ok.2 ⟨v, hv, rfl⟩
    exact hsource (drawing?_eq_none_iff.1 (h _ ht hspeaker) d hd hdrawn)

end Turn

namespace Prompt

theorem content_eq (t : Turn) :
    content t = match t.drawing? with
      | some source => t.text ++ "\n\n" ++ fenced source
      | none => t.text := by
  unfold content Turn.drawing?
  cases t.design with
  | none => rfl
  | some d =>
    dsimp only [Option.bind_some]
    split <;> rfl

theorem content_eq_text_iff (t : Turn) : content t = t.text ↔ t.drawing? = none := by
  rw [content_eq]
  cases t.drawing? with
  | none => simp
  | some source =>
    refine iff_of_false (fun h => ?_) (by simp)
    have hlength := congrArg String.length h
    have hbreak : "\n\n".length = 2 := rfl
    simp only [String.length_append] at hlength
    omega

theorem getElem?_assemble (request : String) {history : Conversation} {i : ℕ} {t : Turn}
    (h : history[i]? = some t) : (assemble request history)[i + 1]? = some (ofTurn t) := by
  have hi : i < (history.map ofTurn).length := by
    rw [List.length_map]
    exact (List.getElem?_eq_some_iff.1 h).1
  unfold assemble
  rw [List.cons_append, List.getElem?_cons_succ, List.getElem?_append_left hi, List.getElem?_map, h]
  rfl

/-- What users said is sent as theirs, word for word. -/
def QuotesUsers (request : String) (history : Conversation) : Prop :=
  ∀ i t, history[i]? = some t → t.speaker = .user →
    (assemble request history)[i + 1]? = some ⟨.user, t.text⟩

theorem quotesUsers_iff (request : String) (history : Conversation) :
    QuotesUsers request history ↔ ∀ t ∈ history, t.speaker = .user → t.drawing? = none := by
  have hsent (t : Turn) (ht : t.speaker = .user) :
      ofTurn t = ⟨.user, t.text⟩ ↔ t.drawing? = none := by
    rw [← content_eq_text_iff, ofTurn, ht]
    simp [role]
  constructor
  · intro h t ht hspeaker
    obtain ⟨i, hi⟩ := List.getElem?_of_mem ht
    have hquoted := h i t hi hspeaker
    rw [getElem?_assemble request hi, Option.some.injEq] at hquoted
    exact (hsent t hspeaker).1 hquoted
  · intro h i t hi hspeaker
    rw [getElem?_assemble request hi, (hsent t hspeaker).2 (h t (List.mem_of_getElem? hi) hspeaker)]

theorem quotesUsers_add (request : String) (history : Conversation) {t : Turn} (ht : t.IsMade) :
    QuotesUsers request (history.add t) ↔ QuotesUsers request history := by
  rw [quotesUsers_iff, quotesUsers_iff, Conversation.add, List.forall_mem_append,
    List.forall_mem_singleton]
  exact and_iff_left ht.drawing?_eq_none

theorem quotesUsers_foldl_add (request : String) (history : Conversation) {made : List Turn}
    (hmade : ∀ t ∈ made, t.IsMade) :
    QuotesUsers request (made.foldl Conversation.add history) ↔ QuotesUsers request history := by
  induction made generalizing history with
  | nil => rfl
  | cons t made ih =>
    obtain ⟨ht, hmade⟩ := List.forall_mem_cons.1 hmade
    rw [List.foldl_cons, ih _ hmade, quotesUsers_add request history ht]

/-- The turns that a caller of the tools sends back are as if they were made. -/
theorem quotesUsers_historyTurns (request : String) (items : List HistoryItem) :
    QuotesUsers request (historyTurns items) := by
  refine (quotesUsers_iff _ _).2 fun t ht => ?_
  obtain ⟨⟨text, speaker, design⟩, -, rfl⟩ := List.mem_map.1 ht
  apply Turn.IsMade.drawing?_eq_none
  cases speaker with
  | user => exact .user text
  | assistant =>
    cases design with
    | none => exact .assistant text
    | some d => exact .presenting text d

theorem quotesUsers_parsed {text : String} {parsed : Conversation}
    (hparse : Conversation.parse text = .ok parsed) (request : String) :
    ∃ items, (Node.array items none).IsTreeOf text ∧
      (QuotesUsers request parsed ↔ ∀ item ∈ items, ¬ Turn.IsUsersDrawing item) := by
  obtain ⟨n, htree, hn⟩ := Decoder.run_eq_ok.1 hparse
  obtain ⟨items, open?, rfl⟩ : ∃ items open?, n = .array items open? := by
    cases n with
    | array items open? => exact ⟨items, open?, rfl⟩
    | _ => cases hn
  obtain ⟨turns, hturns, hopen⟩ := bind_eq_ok.1 hn
  obtain ⟨rfl, rfl⟩ := orFlaw_eq_ok.1 hopen
  refine ⟨items, htree, ?_⟩
  rw [quotesUsers_iff, Decoder.forall_mem_list hturns]
  exact forall₂_congr fun item _ => (Turn.not_isUsersDrawing_iff item).symm

/-- A conversation is read from a text, and turns are added to it. Each user is then quoted at
their place, but a design that they present and that was drawn is quoted with them. So all users
are quoted word for word exactly when in no item of the text a user presents such a design. -/
theorem assemble_parsed {text : String} {parsed : Conversation}
    (hparse : Conversation.parse text = .ok parsed) {made : List Turn}
    (hmade : ∀ t ∈ made, t.IsMade) (request : String) :
    (∀ i t, (made.foldl Conversation.add parsed)[i]? = some t → t.speaker = .user →
      (assemble request (made.foldl Conversation.add parsed))[i + 1]? =
        some ⟨.user, match t.drawing? with
          | some source => t.text ++ "\n\n" ++ fenced source
          | none => t.text⟩) ∧
    ∃ items, (Node.array items none).IsTreeOf text ∧
      (QuotesUsers request (made.foldl Conversation.add parsed) ↔
        ∀ item ∈ items, ¬ Turn.IsUsersDrawing item) := by
  constructor
  · intro i t hi hspeaker
    rw [getElem?_assemble request hi, ofTurn, hspeaker, content_eq]
    rfl
  · obtain ⟨items, htree, hitems⟩ := quotesUsers_parsed hparse request
    exact ⟨items, htree, (quotesUsers_foldl_add request parsed hmade).trans hitems⟩

def usersDrawing : Value :=
  .array [.object [("text", .text "Design a shop"), ("speaker", .text "USER"),
    ("design", .object [("userRequest", .text "Design a shop"),
      ("diagramSource", .text "@startuml\n@enduml"), ("diagramPath", .text "out/d.png"),
      ("diagramFilename", .text "d.png"), ("success", .bool true)])]]

theorem assemble_parsed_usersDrawing :
    (∃ parsed, Conversation.parse usersDrawing.compact = .ok parsed ∧
      ¬ QuotesUsers "next" (parsed.add (.user "more")) ∧
      (assemble "next" (parsed.add (.user "more")))[1]? =
        some ⟨.user, "Design a shop\n\n```plantuml\n@startuml\n@enduml\n```"⟩) ∧
    ∀ t ∈ [Turn.user "more"], t.IsMade := by
  let turn : Turn := ⟨"Design a shop", .user,
    some (.drawn "Design a shop" "" "@startuml\n@enduml" ⟨"out/d.png", "d.png"⟩)⟩
  have hparse : Conversation.parse usersDrawing.compact = .ok [turn] :=
    ((Node.isTreeOf_write usersDrawing .compact).run Conversation.decode).trans rfl
  have hmade : ∀ t ∈ [Turn.user "more"], t.IsMade :=
    List.forall_mem_singleton.2 (.user "more")
  obtain ⟨hsent, -⟩ := assemble_parsed hparse hmade "next"
  have hfirst := hsent 0 turn rfl rfl
  refine ⟨⟨[turn], hparse, fun hquotes => ?_, hfirst.trans (by decide)⟩, hmade⟩
  have hturn := (quotesUsers_iff _ _).1 hquotes turn (.head _) rfl
  cases hturn

end Prompt
end ArchSketch
