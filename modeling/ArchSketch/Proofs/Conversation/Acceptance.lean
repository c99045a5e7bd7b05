import ArchSketch.Proofs.Conversation.Codec

/-! Which texts are read as a design. Whatever its form, a text that is read says of a success
where the drawing is and gives no reason against it, or of a failure the reason and no drawing; the
design that comes of it says the same. Of the objects whose fields have values of the right kinds
no other is refused than those that mix the two. -/
namespace ArchSketch

open Json

namespace Verdict

theorem ofParts_eq_ok {path filename message : Option String} {success : Bool} {v : Verdict} :
    Verdict.ofParts path filename success message = .ok v ↔
      (∃ p q, path = some p ∧ filename = some q ∧ success = true ∧ message = none ∧
        v = .drawn ⟨p, q⟩) ∨
      ∃ m, path = none ∧ filename = none ∧ success = false ∧ message = some m ∧ v = .failed m := by
  cases path <;> cases filename <;> cases success <;> cases message <;> simp [ofParts, eq_comm]

theorem exists_ofParts_iff {path filename message : Option String} {success : Bool} :
    (∃ v, Verdict.ofParts path filename success message = .ok v) ↔
      (path.isSome ↔ filename.isSome) ∧ (message.isSome ↔ success = false) ∧
        (path.isSome ∧ filename.isSome ↔ success = true) := by
  cases path <;> cases filename <;> cases success <;> cases message <;> simp [ofParts]

end Verdict

/-- What a field is read as, told by what stands under it: if the value of an absent field has not
the property `P`, and a value has it just when it is read from a node with the property `Q`. -/
theorem Json.Record.Gives.exists_iff {φ : Type} [DecidableEq φ] {r : Record φ} {f : φ}
    {ns : List Node} {v : r.Value f} {P : r.Value f → Prop} {Q : Node → Prop}
    (h : r.Gives f ns v) (habsent : ∀ w, r.absent f = some w → ¬ P w)
    (hdecode : ∀ n w, r.decode f n = .ok w → (Q n ↔ P w)) : (∃ n ∈ ns, Q n) ↔ P v := by
  cases h with
  | absent hv => simp [habsent v hv]
  | alone hv => simp [hdecode _ v hv]

theorem Json.Decoder.ne_null_iff_isSome {n : Node} {s? : Option String}
    (h : Decoder.string.optional n = .ok s?) : n ≠ .null ↔ s?.isSome := by
  rcases eq_or_ne n .null with rfl | hn
  · obtain rfl := Except.ok.inj h
    simp
  · rw [Decoder.optional_of_ne_null _ hn] at h
    obtain ⟨s, -, rfl⟩ := map_eq_ok.1 h
    simp [hn]

theorem Json.Decoder.eq_bool_iff {n : Node} {b c : Bool} (h : Decoder.flag n = .ok b) :
    n = .bool c ↔ b = c := by
  cases n with
  | bool b' =>
    obtain rfl := Except.ok.inj h
    simp
  | _ => cases h

namespace Design

theorem decode_eq_ok {n : Node} {d : Design} :
    decode n = .ok d ↔ ∃ v verdict, record.read n = .ok v ∧
      Verdict.ofParts (v .path) (v .filename) (v .success) (v .message) = .ok verdict ∧
      d = ⟨v .request, v .explanation, v .source, verdict, v .clarification⟩ := by
  unfold decode
  rw [bind_eq_ok]
  refine exists_congr fun v => ?_
  rcases Verdict.ofParts (v .path) (v .filename) (v .success) (v .message) with e | verdict
  · simp
  · simp [eq_comm]

def Field.IsOfKind : Field → Node → Prop
  | .request | .explanation | .source => fun n => ∃ s, n = .text (some s)
  | .path | .filename | .message => fun n => n = .null ∨ ∃ s, n = .text (some s)
  | .success | .clarification => fun n => ∃ b, n = .bool b

theorem Field.IsOfKind.exists_decode {f : Field} {n : Node} (h : f.IsOfKind n) :
    ∃ v, record.decode f n = .ok v := by
  cases f with
  | request | explanation | source =>
    obtain ⟨s, rfl⟩ := h
    exact ⟨s, rfl⟩
  | path | filename | message =>
    obtain rfl | ⟨s, rfl⟩ := h
    · exact ⟨none, rfl⟩
    · exact ⟨some s, rfl⟩
  | success | clarification =>
    obtain ⟨b, rfl⟩ := h
    exact ⟨b, rfl⟩

/-- The members of an object whose fields have values of the right kinds, each at most once. -/
structure IsWellTyped (ms : List (Key × Node)) : Prop where
  readable : ∀ m ∈ ms, record.IsReadable m
  kind : ∀ f, ∀ n ∈ record.under f ms, f.IsOfKind n
  once : ∀ f, (record.under f ms).length ≤ 1

def IsGiven (f : Field) (ms : List (Key × Node)) : Prop := ∃ n ∈ record.under f ms, n ≠ .null

theorem IsWellTyped.exists_readMembers {ms : List (Key × Node)} (h : IsWellTyped ms)
    (hrequest : record.under .request ms ≠ []) (hsuccess : record.under .success ms ≠ []) :
    ∃ v, record.readMembers ms none = .ok v := by
  have hgives (f : Field) : ∃ v, record.Gives f (record.under f ms) v := by
    rcases hunder : record.under f ms with _ | ⟨n, ns⟩
    · cases f with
      | request => exact absurd hunder hrequest
      | success => exact absurd hunder hsuccess
      | _ => exact ⟨_, .absent rfl⟩
    · have hlength := h.once f
      rw [hunder, List.length_cons] at hlength
      obtain rfl : ns = [] := List.length_eq_zero_iff.1 (by omega)
      obtain ⟨v, hv⟩ := (h.kind f n (by simp [hunder])).exists_decode
      exact ⟨v, .alone hv⟩
  choose v hv using hgives
  exact ⟨v, Record.readMembers_eq_ok.2 ⟨rfl, h.readable, hv⟩⟩

section

variable {ms : List (Key × Node)} {v : (f : Field) → record.Value f}
  (hv : record.readMembers ms none = .ok v)

include hv

theorem gives_of_readMembers (f : Field) : record.Gives f (record.under f ms) (v f) :=
  (Record.readMembers_eq_ok.1 hv).2.2 f

theorem under_request_ne_nil : record.under .request ms ≠ [] := by
  intro hunder
  have hgives := gives_of_readMembers hv .request
  rw [hunder] at hgives
  cases hgives with
  | absent habsent => cases habsent

theorem mem_under_success_iff (success : Bool) :
    .bool success ∈ record.under .success ms ↔ v .success = success := by
  have hgives := gives_of_readMembers hv .success
  have hiff := hgives.exists_iff (P := fun b => b = success) (Q := fun n => n = .bool success)
    (fun _ h => by cases h) fun _ _ h => Decoder.eq_bool_iff h
  simpa using hiff

theorem isGiven_iff_isSome :
    (IsGiven .path ms ↔ Option.isSome (v .path)) ∧
      (IsGiven .filename ms ↔ Option.isSome (v .filename)) ∧
      (IsGiven .message ms ↔ Option.isSome (v .message)) := by
  have hgives := gives_of_readMembers hv
  have habsent (w : Option String) (h : some none = some w) : ¬ w.isSome := by
    obtain rfl := Option.some.inj h
    simp
  have hdecode (n : Node) (w : Option String) (h : Decoder.string.optional n = .ok w) :=
    Decoder.ne_null_iff_isSome h
  exact ⟨(hgives .path).exists_iff habsent hdecode, (hgives .filename).exists_iff habsent hdecode,
    (hgives .message).exists_iff habsent hdecode⟩

end

theorem exists_decode_iff {ms : List (Key × Node)} (h : IsWellTyped ms) :
    (∃ d, decode (.object ms none) = .ok d) ↔
      record.under .request ms ≠ [] ∧ ∃ success, .bool success ∈ record.under .success ms ∧
        (IsGiven .path ms ↔ IsGiven .filename ms) ∧ (IsGiven .message ms ↔ success = false) ∧
          (IsGiven .path ms ∧ IsGiven .filename ms ↔ success = true) := by
  constructor
  · rintro ⟨d, hd⟩
    obtain ⟨v, verdict, hv, hverdict, -⟩ := decode_eq_ok.1 hd
    obtain ⟨hpath, hfilename, hmessage⟩ := isGiven_iff_isSome hv
    rw [hpath, hfilename, hmessage]
    exact ⟨under_request_ne_nil hv, v .success, (mem_under_success_iff hv _).2 rfl,
      Verdict.exists_ofParts_iff.1 ⟨verdict, hverdict⟩⟩
  · rintro ⟨hrequest, success, hsuccess, hparts⟩
    obtain ⟨v, hv⟩ := h.exists_readMembers hrequest (List.ne_nil_of_mem hsuccess)
    obtain ⟨hpath, hfilename, hmessage⟩ := isGiven_iff_isSome hv
    obtain rfl := (mem_under_success_iff hv success).1 hsuccess
    rw [hpath, hfilename, hmessage] at hparts
    obtain ⟨verdict, hverdict⟩ := Verdict.exists_ofParts_iff.2 hparts
    exact ⟨_, decode_eq_ok.2 ⟨v, verdict, hv, hverdict, rfl⟩⟩

/-- A text that is read as a design describes a success with a drawing and without a message, or a
failure with a message and without a drawing, and so does the design. An object with values of the
right kinds is read exactly when its parts make one of the two. -/
theorem run_decode (text : String) :
    (∀ d, Decoder.run decode text = .ok d → ∃ v, Decoder.run record.read text = .ok v ∧
      ((v .success = true ∧ (∃ path filename, v .path = some path ∧ v .filename = some filename ∧
          d.verdict.artifact? = some ⟨path, filename⟩) ∧ v .message = none ∧
          d.verdict.isDrawn = true ∧ d.verdict.message? = none) ∨
        (v .success = false ∧ (∃ message, v .message = some message ∧
          d.verdict.message? = some message) ∧ v .path = none ∧ v .filename = none ∧
          d.verdict.isDrawn = false ∧ d.verdict.artifact? = none))) ∧
    ∀ ms, (Node.object ms none).IsTreeOf text → IsWellTyped ms →
      ((∃ d, Decoder.run decode text = .ok d) ↔
        record.under .request ms ≠ [] ∧ ∃ success, .bool success ∈ record.under .success ms ∧
          (IsGiven .path ms ↔ IsGiven .filename ms) ∧ (IsGiven .message ms ↔ success = false) ∧
            (IsGiven .path ms ∧ IsGiven .filename ms ↔ success = true)) := by
  constructor
  · intro d hd
    obtain ⟨n, hn, hd⟩ := Decoder.run_eq_ok.1 hd
    obtain ⟨v, verdict, hv, hverdict, rfl⟩ := decode_eq_ok.1 hd
    refine ⟨v, (hn.run _).trans hv, ?_⟩
    rcases Verdict.ofParts_eq_ok.1 hverdict with
      ⟨path, filename, hpath, hfilename, hsuccess, hmessage, rfl⟩ |
        ⟨message, hpath, hfilename, hsuccess, hmessage, rfl⟩
    · exact .inl ⟨hsuccess, ⟨path, filename, hpath, hfilename, rfl⟩, hmessage, rfl, rfl⟩
    · exact .inr ⟨hsuccess, ⟨message, hmessage, rfl⟩, hpath, hfilename, rfl, rfl⟩
  · intro ms hms htyped
    rw [hms.run]
    exact exists_decode_iff htyped

def drawnMembers : List (String × Value) :=
  [("success", .bool true), ("colour", .array [.null]), ("diagramFilename", .text "d.png"),
    ("plantUmlCode", .text "@startuml\n@enduml"), ("errorMessage", .null),
    ("userRequest", .text "Design a shop"), ("diagramPath", .text "out/d.png")]

theorem isWellTyped_drawnMembers : IsWellTyped (Node.ofMembers drawnMembers) where
  readable := by
    have hforeign : record.IsForeign (.name "colour", .array [.null] none) :=
      ⟨⟨"colour", rfl, by decide⟩, rfl⟩
    simp only [drawnMembers, Node.ofMembers, List.forall_mem_cons, Record.IsReadable]
    exact ⟨.inl rfl, .inr hforeign, .inl rfl, .inl rfl, .inl rfl, .inl rfl, .inl rfl, by simp⟩
  kind f n hn := by
    cases f with
    | request => exact ⟨"Design a shop", List.mem_singleton.1 hn⟩
    | source => exact ⟨"@startuml\n@enduml", List.mem_singleton.1 hn⟩
    | path => exact .inr ⟨"out/d.png", List.mem_singleton.1 hn⟩
    | filename => exact .inr ⟨"d.png", List.mem_singleton.1 hn⟩
    | message => exact .inl (List.mem_singleton.1 hn)
    | success => exact ⟨true, List.mem_singleton.1 hn⟩
    | explanation | clarification => cases hn
  once f := by cases f <;> decide

theorem run_decode_drawnMembers :
    (Node.object (Node.ofMembers drawnMembers) none).IsTreeOf
        (Value.object drawnMembers).compact ∧
      IsWellTyped (Node.ofMembers drawnMembers) ∧
      ∃ d, Decoder.run decode (Value.object drawnMembers).compact = .ok d := by
  have htree := Node.isTreeOf_write (.object drawnMembers) .compact
  have hpath : IsGiven .path (Node.ofMembers drawnMembers) :=
    ⟨.text (some "out/d.png"), List.mem_singleton.2 rfl, Node.noConfusion⟩
  have hfilename : IsGiven .filename (Node.ofMembers drawnMembers) :=
    ⟨.text (some "d.png"), List.mem_singleton.2 rfl, Node.noConfusion⟩
  have hmessage : ¬ IsGiven .message (Node.ofMembers drawnMembers) := by
    rintro ⟨n, hn, hnull⟩
    exact hnull (List.mem_singleton.1 hn)
  refine ⟨htree, isWellTyped_drawnMembers,
    ((run_decode _).2 _ htree isWellTyped_drawnMembers).2 ⟨List.cons_ne_nil _ _, true, ?_⟩⟩
  exact ⟨List.mem_singleton.2 rfl, iff_of_true hpath hfilename, by simp [hmessage],
    iff_of_true ⟨hpath, hfilename⟩ rfl⟩

end Design
end ArchSketch
