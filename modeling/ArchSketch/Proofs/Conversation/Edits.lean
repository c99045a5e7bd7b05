import ArchSketch.Proofs.Conversation.Codec
import ArchSketch.Proofs.Json.Edits

/-! Stored conversations that say the same. A conversation is read from its text as before when the
members of its turns, and of the designs they present, change their order or their names, when a
speaker is named in small letters, and when members that nobody knows join the others. A text, a
speaker or a source that is given twice is refused. -/
namespace ArchSketch

open Json

namespace Json.Decoder

theorem list_append_cons {α : Type} {d : Decoder α} (before after : List Node) (n : Node) :
    Decoder.list d (.array (before ++ n :: after) none) = (do
      let as ← before.mapM d
      let a ← d n
      let bs ← after.mapM d
      .ok (as ++ a :: bs)) := by
  simp [Decoder.list, orFlaw]

theorem list_replace {α : Type} {d : Decoder α} {before after : List Node} {n n' : Node}
    {as : List α} (h : Decoder.list d (.array (before ++ n :: after) none) = .ok as)
    (hn : ∀ a, d n = .ok a → d n' = .ok a) :
    Decoder.list d (.array (before ++ n' :: after) none) = .ok as := by
  rw [list_append_cons, bind_eq_ok] at h ⊢
  obtain ⟨bs, hbefore, h⟩ := h
  obtain ⟨a, ha, h⟩ := bind_eq_ok.1 h
  exact ⟨bs, hbefore, bind_eq_ok.2 ⟨a, hn a ha, h⟩⟩

theorem list_error {α : Type} {d : Decoder α} {before after : List Node} {n n' : Node}
    {as : List α} {e : DecodeError}
    (h : Decoder.list d (.array (before ++ n :: after) none) = .ok as)
    (hn : ∀ a, d n = .ok a → d n' = .error e) :
    Decoder.list d (.array (before ++ n' :: after) none) = .error e := by
  rw [list_append_cons, bind_eq_ok] at h
  obtain ⟨bs, hbefore, h⟩ := h
  obtain ⟨a, ha, -⟩ := bind_eq_ok.1 h
  rw [list_append_cons, hbefore, hn a ha]
  rfl

end Json.Decoder

namespace Design

theorem hasDistinctNames : record.HasDistinctNames := by
  intro f
  cases f <;> decide

def Edit (n n' : Node) : Prop :=
  ∃ ms ms', n = .object ms none ∧ n' = .object ms' none ∧
    record.Edit (fun _ _ _ => False) ms ms'

theorem Edit.decode {n n' : Node} (h : Edit n n') {d : Design} (hd : decode n = .ok d) :
    decode n' = .ok d := by
  obtain ⟨ms, ms', rfl, rfl, hedit⟩ := h
  obtain ⟨v, hv, hd⟩ := bind_eq_ok.1 hd
  exact bind_eq_ok.2 ⟨v, hedit.readMembers hasDistinctNames (fun _ _ _ _ h => h.elim) hv, hd⟩

theorem decode_repeats {name : String} {ms ms' : List (Key × Node)} {flaw? : Option DecodeError}
    (h : record.Repeats name ms ms' flaw?) {d : Design} (hd : decode (.object ms none) = .ok d) :
    decode (.object ms' none) = .error (flaw?.getD (.duplicateField name)) := by
  obtain ⟨v, hv, -⟩ := bind_eq_ok.1 hd
  have hread : record.read (.object ms' none) = .error (flaw?.getD (.duplicateField name)) :=
    h.readMembers hasDistinctNames hv none
  unfold decode
  rw [hread]
  rfl

end Design

namespace Speaker

def smallName : Speaker → String
  | user => "user"
  | assistant => "assistant"

/-- The same speaker in small letters, in either of the ways a speaker may be given. -/
inductive Lowers : Node → Node → Prop
  | text (s : Speaker) : Lowers (.text (some s.name)) (.text (some s.smallName))
  | key (s : Speaker) :
    Lowers (.object [(.name s.name, .null)] none) (.object [(.name s.smallName, .null)] none)

theorem Lowers.decode {n n' : Node} (h : Lowers n n') : Speaker.decode n' = Speaker.decode n := by
  cases h with
  | text s => cases s <;> rfl
  | key s => cases s <;> rfl

end Speaker

namespace Turn

theorem hasDistinctNames : (record storedAliases).HasDistinctNames := by
  intro f
  cases f <;> decide

def Alters : Field → Node → Node → Prop
  | .text => fun _ _ => False
  | .speaker => Speaker.Lowers
  | .design => Design.Edit

theorem Alters.decode (f : Field) (n n' : Node) (v : (record storedAliases).Value f)
    (h : Alters f n n') (hv : (record storedAliases).decode f n = .ok v) :
    (record storedAliases).decode f n' = .ok v := by
  cases f with
  | text => exact h.elim
  | speaker => exact (Speaker.Lowers.decode h).trans hv
  | design =>
    obtain ⟨ms, ms', rfl, rfl, hedit⟩ := h
    obtain ⟨d, hd, rfl⟩ := map_eq_ok.1 hv
    exact congrArg (Except.map some) (Design.Edit.decode ⟨ms, ms', rfl, rfl, hedit⟩ hd)

abbrev Edit := (record storedAliases).Edit Alters

theorem decode_edit {ms ms' : List (Key × Node)} (h : Edit ms ms') {t : Turn}
    (ht : decode (.object ms none) = .ok t) : decode (.object ms' none) = .ok t := by
  obtain ⟨v, hv, ht⟩ := bind_eq_ok.1 ht
  exact bind_eq_ok.2 ⟨v, h.readMembers hasDistinctNames Alters.decode hv, ht⟩

theorem decode_repeats {name : String} {ms ms' : List (Key × Node)} {flaw? : Option DecodeError}
    (h : (record storedAliases).Repeats name ms ms' flaw?) {t : Turn}
    (ht : decode (.object ms none) = .ok t) :
    decode (.object ms' none) = .error (flaw?.getD (.duplicateField name)) := by
  obtain ⟨v, hv, -⟩ := bind_eq_ok.1 ht
  have hread : (record storedAliases).read (.object ms' none) =
      .error (flaw?.getD (.duplicateField name)) :=
    h.readMembers hasDistinctNames hv none
  unfold decode
  rw [hread]
  rfl

theorem decode_spoilt {pre post : List (Key × Node)} {n n' : Node} {e : DecodeError}
    (hn : ∀ d, Design.decode.optional n = .ok d → Design.decode.optional n' = .error e) {t : Turn}
    (ht : decode (.object (pre ++ (.name "design", n) :: post) none) = .ok t) :
    decode (.object (pre ++ (.name "design", n') :: post) none) = .error e := by
  obtain ⟨v, hv, -⟩ := bind_eq_ok.1 ht
  have hkey : "design" ∈ (record storedAliases).names .design := by decide
  have hread : (record storedAliases).read (.object (pre ++ (.name "design", n') :: post) none) =
      .error e :=
    Record.readMembers_spoilt hasDistinctNames hkey hv hn none
  unfold decode
  rw [hread]
  rfl

end Turn

namespace Conversation

inductive Edit : List Node → List Node → Prop
  | turn {before after : List Node} {ms ms' : List (Key × Node)} : Turn.Edit ms ms' →
    Edit (before ++ .object ms none :: after) (before ++ .object ms' none :: after)

/-- The items of a conversation in which a turn, or the design in a turn, has a field twice. -/
inductive Repeats (name : String) :
    List Node → List Node → (flaw? : Option DecodeError) → Prop
  | turn {before after : List Node} {ms ms' : List (Key × Node)} {flaw? : Option DecodeError} :
    (Turn.record Turn.storedAliases).Repeats name ms ms' flaw? →
      Repeats name (before ++ .object ms none :: after) (before ++ .object ms' none :: after) flaw?
  | design {before after : List Node} {pre post ms ms' : List (Key × Node)}
    {flaw? : Option DecodeError} :
    Design.record.Repeats name ms ms' flaw? →
      Repeats name
        (before ++ .object (pre ++ (.name "design", .object ms none) :: post) none :: after)
        (before ++ .object (pre ++ (.name "design", .object ms' none) :: post) none :: after)
        flaw?

theorem decode_edit {items items' : List Node} (h : Edit items items') {c : Conversation}
    (hc : decode (.array items none) = .ok c) : decode (.array items' none) = .ok c := by
  obtain ⟨hedit⟩ := h
  exact Decoder.list_replace hc fun t ht => Turn.decode_edit hedit ht

theorem decode_edits {items items' : List Node} (h : Relation.ReflTransGen Edit items items')
    {c : Conversation} (hc : decode (.array items none) = .ok c) :
    decode (.array items' none) = .ok c := by
  induction h with
  | refl => exact hc
  | tail _ hedit ih => exact decode_edit hedit ih

theorem decode_repeats {name : String} {items items' : List Node} {flaw? : Option DecodeError}
    (h : Repeats name items items' flaw?) {c : Conversation}
    (hc : decode (.array items none) = .ok c) :
    decode (.array items' none) = .error (flaw?.getD (.duplicateField name)) := by
  cases h with
  | turn h => exact Decoder.list_error hc fun t ht => Turn.decode_repeats h ht
  | design h =>
    refine Decoder.list_error hc fun t ht => Turn.decode_spoilt (fun d? hd => ?_) ht
    obtain ⟨d, hd, -⟩ := map_eq_ok.1 hd
    exact congrArg (Except.map some) (Design.decode_repeats h hd)

/-- A text in which some turns were edited is read as the same conversation. One in which a field
is given twice is refused for that, unless the value that stands first is of the wrong kind and is
refused itself. -/
theorem parse_edited {text : String} {items : List Node} {c : Conversation}
    (htext : (Node.array items none).IsTreeOf text) (hparse : parse text = .ok c) :
    (∀ text' items', (Node.array items' none).IsTreeOf text' →
      Relation.ReflTransGen Edit items items' → parse text' = .ok c) ∧
    ∀ text' items' name flaw?, (Node.array items' none).IsTreeOf text' →
      Repeats name items items' flaw? →
        parse text' = .error (flaw?.getD (.duplicateField name)) := by
  have hc : decode (.array items none) = .ok c := (htext.run decode).symm.trans hparse
  constructor
  · intro text' items' htext' hedits
    exact (htext'.run decode).trans (decode_edits hedits hc)
  · intro text' items' name flaw? htext' hrepeats
    exact (htext'.run decode).trans (decode_repeats hrepeats hc)

/-- The members of a design that failed, with the names that its source is given under, and those
of a turn that presents it. -/
def failedDesign (sources : List String) : List (String × Value) :=
  sources.map (fun name => (name, .text "@startuml\n@enduml")) ++
    [("success", .bool false), ("userRequest", .text "Design a shop"),
      ("errorMessage", .text "no disk")]

def failedTurn (design : List (String × Value)) : List (String × Value) :=
  [("design", .object design), ("speaker", .text "ASSISTANT"), ("text", .text "A shop.")]

def failedTurn' (design : List (String × Value)) : List (String × Value) :=
  [("sender", .text "assistant"), ("design", .object (("colour", .array [.null]) :: design)),
    ("text", .text "A shop.")]

theorem edits_failedTurn :
    Relation.ReflTransGen Turn.Edit (Node.ofMembers (failedTurn (failedDesign ["diagramSource"])))
      (Node.ofMembers (failedTurn' (failedDesign ["plantUmlCode"]))) := by
  let design (sources : List String) := Node.ofMembers (failedDesign sources)
  let colour : Key × Node := (.name "colour", .array [.null] none)
  let text : Key × Node := (.name "text", .text (some "A shop."))
  let turn (ms : List (Key × Node)) : List (Key × Node) :=
    [(.name "design", .object ms none), (.name "speaker", .text (some "ASSISTANT")), text]
  let swapped (key name : String) : List (Key × Node) :=
    [(.name key, .text (some name)),
      (.name "design", .object (colour :: design ["plantUmlCode"]) none), text]
  have hdesign {ms ms' : List (Key × Node)} (h : Design.record.Edit (fun _ _ _ => False) ms ms') :
      Turn.Edit (turn ms) (turn ms') := by
    have halters : Turn.Alters .design (.object ms none) (.object ms' none) :=
      ⟨ms, ms', rfl, rfl, h⟩
    exact .alter (by decide) halters
  have hsource : Turn.Edit (turn (design ["diagramSource"])) (turn (design ["plantUmlCode"])) :=
    hdesign (.rename (f := .source) (by decide) (by decide))
  have hcolour : Turn.Edit (turn (design ["plantUmlCode"]))
      (turn (colour :: design ["plantUmlCode"])) :=
    hdesign (.insert ⟨⟨"colour", rfl, by decide⟩, rfl⟩)
  have horder : Turn.Edit (turn (colour :: design ["plantUmlCode"]))
      (swapped "speaker" "ASSISTANT") :=
    .order (.swap ..)
  have hsender : Turn.Edit (swapped "speaker" "ASSISTANT") (swapped "sender" "ASSISTANT") :=
    .rename (f := .speaker) (by decide) (by decide)
  have hlower : Turn.Edit (swapped "sender" "ASSISTANT") (swapped "sender" "assistant") := by
    have halters : Turn.Alters .speaker (.text (some "ASSISTANT")) (.text (some "assistant")) :=
      Speaker.Lowers.text .assistant
    exact .alter (by decide) halters
  exact .tail (.tail (.tail (.tail (.single hsource) hcolour) horder) hsender) hlower

def talk (turn : List (String × Value)) : Value := .array [.object turn]

def failedConversation : Conversation :=
  [.presenting "A shop." (.failed "Design a shop" "" "@startuml\n@enduml" "no disk" false)]

theorem parse_edited_failedTurn :
    (Node.ofValue (talk (failedTurn (failedDesign ["diagramSource"])))).IsTreeOf
      (talk (failedTurn (failedDesign ["diagramSource"]))).compact ∧
    parse (talk (failedTurn (failedDesign ["diagramSource"]))).compact = .ok failedConversation ∧
    parse (talk (failedTurn' (failedDesign ["plantUmlCode"]))).compact = .ok failedConversation ∧
    parse (talk (failedTurn (failedDesign ["diagramSource", "plantUmlCode"]))).compact =
      .error (.duplicateField "diagramSource") := by
  have htree (turn : List (String × Value)) := Node.isTreeOf_write (talk turn) .compact
  have hparse : parse (talk (failedTurn (failedDesign ["diagramSource"]))).compact =
      .ok failedConversation :=
    ((htree _).run decode).trans rfl
  have hedits := edits_failedTurn.lift (fun ms => [Node.object ms none])
    fun _ _ h => @Edit.turn [] [] _ _ h
  have hrepeats : Design.record.Repeats "diagramSource"
      (Node.ofMembers (failedDesign ["diagramSource"]))
      (Node.ofMembers (failedDesign ["diagramSource", "plantUmlCode"])) none :=
    @Record.Repeats.after _ _ _ _ .source "diagramSource" "plantUmlCode" [] []
      (Node.ofMembers (failedDesign [])) _ _ rfl (by decide) (by decide)
  have hedited := parse_edited (htree _) hparse
  exact ⟨htree _, hparse, hedited.1 _ _ (htree _) hedits,
    hedited.2 _ _ _ none (htree _) (@Repeats.design _ [] [] [] _ _ _ _ hrepeats)⟩

def greeting : List (String × Value) := [("text", .text "hi"), ("speaker", .text "USER")]

/-- A number before the text, under the text's other name, is refused for being a number. -/
theorem not_duplicateField_greeting :
    ¬ ∀ text items c text' items' name flaw?, (Node.array items none).IsTreeOf text →
      parse text = .ok c → (Node.array items' none).IsTreeOf text' →
      Repeats name items items' flaw? → parse text' = .error (.duplicateField name) := by
  intro h
  let number : String × Value := ("message", .number (.ofNat 5))
  have htree (turn : List (String × Value)) := Node.isTreeOf_write (talk turn) .compact
  have hparse : parse (talk greeting).compact = .ok [.user "hi"] :=
    ((htree _).run decode).trans (by decide +kernel)
  have hspoilt : parse (talk (number :: greeting)).compact = .error .invalidType :=
    ((htree _).run decode).trans (by decide +kernel)
  have hstring : Decoder.string (Node.ofValue number.2) = .error .invalidType := by decide +kernel
  have hnumber : (Turn.record Turn.storedAliases).decode .text (Node.ofValue number.2) =
    .error .invalidType := hstring
  have hrepeats : (Turn.record Turn.storedAliases).Repeats "text" (Node.ofMembers greeting)
      (Node.ofMembers (number :: greeting)) (some .invalidType) :=
    @Record.Repeats.spoiled _ _ _ _ .text "text" "message" [] []
      (Node.ofMembers [("speaker", .text "USER")]) _ _ _ rfl (by decide) (by decide) hnumber
  have hduplicate := h _ _ _ _ _ _ _ (htree _) hparse (htree _)
    (@Repeats.turn _ [] [] _ _ _ hrepeats)
  cases hspoilt.symm.trans hduplicate

end Conversation
end ArchSketch
