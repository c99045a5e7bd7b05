import ArchSketch.Proofs.Json.Members
import ArchSketch.Proofs.Json.Reader

/-! A record that was written member by member is decoded to its fields. A member that was left
out must be one whose absence stands for the same value. Arrays and optional values are decoded as
what they hold is. -/
namespace ArchSketch.Json

theorem Node.isTreeOf_write (v : Value) (l : Layout) :
    (Node.ofValue v).IsTreeOf (String.ofList (v.write l 0)) := by
  unfold Node.IsTreeOf
  rw [String.toList_ofList]
  exact ⟨[], Node.read_write v l, rfl⟩

theorem Decoder.run_write {α : Type} (d : Decoder α) (v : Value) (l : Layout) :
    d.run (String.ofList (v.write l 0)) = d (Node.ofValue v) :=
  (Node.isTreeOf_write v l).run d

theorem mapM_eq_ok {ε α β : Type} {f : α → Except ε β} {g : α → β} {as : List α}
    (h : ∀ a ∈ as, f a = .ok (g a)) : as.mapM f = .ok (as.map g) := by
  induction as with
  | nil => rfl
  | cons a as ih =>
    rw [List.mapM_cons, h a List.mem_cons_self, ih fun b hb => h b (List.mem_cons_of_mem a hb)]
    rfl

theorem Node.ofValues_eq_map (vs : List Value) : Node.ofValues vs = vs.map Node.ofValue := by
  induction vs with
  | nil => rfl
  | cons v vs ih => rw [Node.ofValues, ih, List.map_cons]

theorem Decoder.list_ofValue {α β : Type} {d : Decoder β} {toJson : α → Value} {read : α → β}
    {as : List α} (h : ∀ a ∈ as, d (Node.ofValue (toJson a)) = .ok (read a)) :
    Decoder.list d (Node.ofValue (.array (as.map toJson))) = .ok (as.map read) := by
  have hitems : (Node.ofValues (as.map toJson)).mapM d = .ok (as.map read) := by
    rw [Node.ofValues_eq_map, List.mapM_map, List.mapM_map]
    exact mapM_eq_ok h
  rw [Node.ofValue, Decoder.list, hitems]
  rfl

theorem Decoder.optional_of_ne_null {α : Type} (d : Decoder α) {n : Node} (h : n ≠ .null) :
    d.optional n = (d n).map some := by
  cases n with
  | null => exact absurd rfl h
  | _ => rfl

theorem Decoder.optional_ofValue {α : Type} {d : Decoder α} {toJson : α → Value}
    (hnull : ∀ a, Node.ofValue (toJson a) ≠ .null)
    (h : ∀ a, d (Node.ofValue (toJson a)) = .ok a) {a? : Option α} {v : Value}
    (hv : a?.map toJson = some v) : d.optional (Node.ofValue v) = .ok a? := by
  obtain ⟨a, rfl, rfl⟩ := Option.map_eq_some_iff.1 hv
  rw [d.optional_of_ne_null (hnull a), h a]
  rfl

namespace Record

variable {φ : Type} [DecidableEq φ] {r : Record φ}

section

variable {member : φ → Option Json.Value} {value : (f : φ) → r.Value f}
  (hfield : ∀ f, r.field? (r.name f) = some f)
  (hdecode : ∀ f v, member f = some v → r.decode f (Node.ofValue v) = .ok (value f))
  (hnodup : r.fields.Nodup) (habsent : ∀ f, member f = none → r.absent f = some (value f))

theorem ofMembers_fields (fs : List φ) :
    Node.ofMembers ((fs.map fun f => (r.name f, member f)).filterMap
      fun m => m.2.map (m.1, ·)) =
      fs.filterMap fun f => ((member f).map Node.ofValue).map (.name (r.name f), ·) := by
  induction fs with
  | nil => rfl
  | cons f fs ih =>
    rw [List.map_cons, List.filterMap_cons, List.filterMap_cons]
    cases hmember : member f with
    | none => simpa using ih
    | some v => simpa [Node.ofMembers] using ih

include hfield hdecode hnodup habsent

theorem readMembers_record :
    r.readMembers (Node.ofMembers ((r.fields.map fun f => (r.name f, member f)).filterMap
      fun m => m.2.map (m.1, ·))) none = .ok value := by
  have harranged : r.IsArranged (fun f => (member f).map Node.ofValue)
      (Node.ofMembers ((r.fields.map fun f => (r.name f, member f)).filterMap
        fun m => m.2.map (m.1, ·))) :=
    ⟨[], by simp, by rw [ofMembers_fields, List.append_nil, written]⟩
  refine harranged.readMembers hfield hnodup (fun f n hn => ?_) fun f hn =>
    habsent f (Option.map_eq_none_iff.1 hn)
  obtain ⟨v, hv, rfl⟩ := Option.map_eq_some_iff.1 hn
  exact hdecode f v hv

/-- Decoding undoes encoding, for records whose fields have names of their own. -/
theorem read_record :
    r.read (Node.ofValue (.record (r.fields.map fun f => (r.name f, member f)))) = .ok value :=
  readMembers_record hfield hdecode hnodup habsent

end

end Record
end ArchSketch.Json
