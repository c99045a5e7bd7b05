import ArchSketch.Json.Reader

/-! Taking values out of a JSON text. A decoder goes through the tree in the order of the text and
stops at the first thing that is wrong, be it the text itself or the kind of a value. -/
namespace ArchSketch.Json

inductive DecodeError where
  | text (flaw : Flaw)
  | missingField (name : String)
  | duplicateField (name : String)
  | unknownVariant (name : String)
  | invalidType
  | invalidValue
  | invalidLength
  | inconsistent (reason : String)
  deriving DecidableEq, Repr

namespace DecodeError

def malformed : DecodeError := text .malformed

def message? : DecodeError → Option String
  | text _ => none
  | missingField name => some ("missing field \x60" ++ name ++ "\x60")
  | duplicateField name => some ("duplicate field \x60" ++ name ++ "\x60")
  | unknownVariant name => some ("unknown variant \x60" ++ name ++ "\x60")
  | invalidType => some "invalid type"
  | invalidValue => some "invalid value"
  | invalidLength => some "invalid length"
  | inconsistent reason => some reason

end DecodeError

abbrev Decoder (α : Type) := Node → Except DecodeError α

def orFlaw {α : Type} (flaw? : Option Flaw) (a : α) : Except DecodeError α :=
  match flaw? with
  | some f => .error (.text f)
  | none => .ok a

namespace Node

/-- The error for a value of another kind than the wanted one. A scalar is read to its end before
its kind is told, an array or object is not. -/
def wrongKind : Node → DecodeError
  | broken _ kept _ => .text kept
  | text none => .malformed
  | number n => if n.magnitude?.isSome then .invalidType else .malformed
  | _ => .invalidType

end Node

namespace Decoder

def string : Decoder String
  | .text (some s) => .ok s
  | n => .error n.wrongKind

def flag : Decoder Bool
  | .bool b => .ok b
  | n => .error n.wrongKind

def optional {α : Type} (d : Decoder α) : Decoder (Option α)
  | .null => .ok none
  | n => (d n).map some

def list {α : Type} (d : Decoder α) : Decoder (List α)
  | .array items open? => do orFlaw open? (← items.mapM d)
  | n => .error n.wrongKind

/-- A natural number below `bound`, which is at most 2^64. An integer of 64 bits out of bounds has
a wrong value, any other number a wrong kind. -/
def natBelow (bound : Nat) : Decoder Nat
  | .number n =>
    if n.isInteger && !n.negative && n.whole < bound then .ok n.whole
    else if n.isInteger && n.whole < (if n.negative then UInt64.size / 2 + 1 else UInt64.size) then
      .error .invalidValue
    else .error (Node.number n).wrongKind
  | n => .error n.wrongKind

def single : Decoder Number.Single
  | .number n => match n.toSingle? with
    | some x => .ok x
    | none => .error .malformed
  | n => .error n.wrongKind

def named {α : Type} (choices : List (String × α)) (name : String) : Except DecodeError α :=
  match choices.lookup name with
  | some a => .ok a
  | none => .error (.unknownVariant name)

/-- One of a few names, alone or as the only key of an object that holds null. -/
def choice {α : Type} (choices : List (String × α)) : Decoder α
  | .text (some s) => named choices s
  | .object ((.missing, n) :: _) _ => .error (.text (n.keyFlaw false))
  | .object ((.name k, n) :: rest) open? => do
    let a ← named choices k
    match n with
    | .null => if rest.isEmpty then orFlaw open? a else .error .malformed
    | n => .error n.wrongKind
  | .broken .other _ _ => .error .malformed
  | .broken _ kept _ => .error (.text kept)
  | _ => .error .malformed

def run {α : Type} (d : Decoder α) (text : String) : Except DecodeError α := do
  let (n, rest) := Node.read text.toList
  let a ← d n
  if (skipSpace rest).isEmpty then .ok a else .error .malformed

end Decoder
end ArchSketch.Json
