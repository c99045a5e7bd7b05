import ArchSketch.Json.Decode

/-! Records: objects with known members. Members may come in any order, unknown ones are passed
over, and a record may also be given as the array of its values in the order of the fields. -/
namespace ArchSketch.Json

structure Record (φ : Type) [DecidableEq φ] where
  fields : List φ
  mem_fields : ∀ f, f ∈ fields
  name : φ → String
  aliases : φ → List String
  Value : φ → Type
  decode : (f : φ) → Decoder (Value f)
  /-- What an absent field stands for, if it may be absent. -/
  absent : (f : φ) → Option (Value f)

namespace Record

def single {α : Type} (name : String) (decode : Decoder α) (absent : Option α) : Record Unit where
  fields := [()]
  mem_fields _ := List.mem_singleton.2 rfl
  name _ := name
  aliases _ := []
  Value _ := α
  decode _ := decode
  absent _ := absent

variable {φ : Type} [DecidableEq φ] (r : Record φ)

abbrev Draft := (f : φ) → Option (r.Value f)

def Draft.empty : r.Draft := fun _ => none

variable {r} in
def Draft.set (d : r.Draft) (f : φ) (v : r.Value f) : r.Draft :=
  fun g => if h : f = g then some (h ▸ v) else d g

def field? (key : String) : Option φ :=
  r.fields.find? fun f => key == r.name f || (r.aliases f).contains key

def readMember (d : r.Draft) : Key × Node → Except DecodeError r.Draft
  | (.missing, n) => .error (.text (n.keyFlaw false))
  | (.lone, _) => .error .malformed
  | (.name key, n) =>
    match r.field? key with
    | none => orFlaw n.skipFlaw? d
    | some f =>
      if (d f).isSome then .error (.duplicateField (r.name f))
      else do return d.set f (← r.decode f n)

def value? (d : r.Draft) (f : φ) : Option (r.Value f) := (d f).or (r.absent f)

def complete (d : r.Draft) : Except DecodeError ((f : φ) → r.Value f) :=
  match h : r.fields.find? (fun f => (r.value? d f).isNone) with
  | some f => .error (.missingField (r.name f))
  | none => .ok fun f => (r.value? d f).get (by
      have := List.find?_eq_none.1 h f (r.mem_fields f)
      simpa [Option.isSome_iff_ne_none] using this)

def readMembers (members : List (Key × Node)) (open? : Option Flaw) :
    Except DecodeError ((f : φ) → r.Value f) := do
  let d ← members.foldlM r.readMember (Draft.empty r)
  r.complete (← orFlaw open? d)

def fillFrom (open? : Option Flaw) : List φ → List Node → r.Draft →
    Except DecodeError (r.Draft × List Node)
  | [], items, d => .ok (d, items)
  | f :: fs, n :: items, d => do fillFrom open? fs items (d.set f (← r.decode f n))
  | f :: fs, [], d => do
    let d ← orFlaw open? d
    if (r.absent f).isSome then fillFrom open? fs [] d else .error .invalidLength

/-- Reads a record from the items of an array; `tooMany` is the error when some are left over. -/
def readItems (tooMany : DecodeError) (items : List Node) (open? : Option Flaw) :
    Except DecodeError ((f : φ) → r.Value f) := do
  let (d, left) ← r.fillFrom open? r.fields items (Draft.empty r)
  if left.isEmpty then r.complete (← orFlaw open? d) else .error tooMany

def read : Decoder ((f : φ) → r.Value f)
  | .object members open? => r.readMembers members open?
  | .array items open? => r.readItems .malformed items open?
  | n => .error n.wrongKind

end Record
end ArchSketch.Json
