import ArchSketch.Json.Scan
import ArchSketch.Json.Value

/-! A JSON text read as far as it is well formed. The flaw that stopped the reading stands in the
tree where it was met, so that whoever takes the tree apart in the order of the text finds what
comes first: the flaw, or a value of the wrong kind. -/
namespace ArchSketch.Json

inductive Start where
  | nothing
  | quote
  | other
  deriving DecidableEq, Repr

inductive Key where
  | name (s : String)
  | lone
  /-- No key: what stands in its place is the value. -/
  | missing
  deriving DecidableEq, Repr

inductive Node where
  | null
  | bool (b : Bool)
  | number (n : Numeral)
  /-- None is a text with a lone surrogate. -/
  | text (s : Option String)
  | array (items : List Node) (open? : Option Flaw)
  | object (members : List (Key × Node)) (open? : Option Flaw)
  | broken (start : Start) (kept skipped : Flaw)

namespace Node

def keyFlaw : Node → (skipping : Bool) → Flaw
  | broken .nothing _ _, _ => .truncated
  | broken .quote kept skipped, skipping => if skipping then skipped else kept
  | _, _ => .malformed

mutual

def skipFlaw? : Node → Option Flaw
  | null => none
  | bool _ => none
  | number _ => none
  | text _ => none
  | array items open? => (itemsSkipFlaw? items).or open?
  | object members open? => (membersSkipFlaw? members).or open?
  | broken _ _ skipped => some skipped

def itemsSkipFlaw? : List Node → Option Flaw
  | [] => none
  | n :: ns => n.skipFlaw?.or (itemsSkipFlaw? ns)

def membersSkipFlaw? : List (Key × Node) → Option Flaw
  | [] => none
  | (key, n) :: ms =>
    (if key = .missing then some (n.keyFlaw true) else n.skipFlaw?).or (membersSkipFlaw? ms)

end

mutual

/-- The first flaw for a reader that takes the value as it is, whatever its kind, with at most
`depth` levels of arrays and objects. -/
def keepFlaw? (depth : Nat) : Node → Option Flaw
  | null => none
  | bool _ => none
  | number n => if n.magnitude?.isSome then none else some .malformed
  | text s => if s.isSome then none else some .malformed
  | array items open? =>
    match depth with
    | 0 => some .malformed
    | depth + 1 => (itemsKeepFlaw? depth items).or open?
  | object members open? =>
    match depth with
    | 0 => some .malformed
    | depth + 1 => (membersKeepFlaw? depth members).or open?
  | broken _ kept _ => some kept

def itemsKeepFlaw? (depth : Nat) : List Node → Option Flaw
  | [] => none
  | n :: ns => (n.keepFlaw? depth).or (itemsKeepFlaw? depth ns)

def membersKeepFlaw? (depth : Nat) : List (Key × Node) → Option Flaw
  | [] => none
  | (key, n) :: ms =>
    (match key with
      | .missing => some (n.keyFlaw false)
      | .lone => some .malformed
      | .name _ => n.keepFlaw? depth).or (membersKeepFlaw? depth ms)

end

mutual

def ofValue : Value → Node
  | .null => null
  | .bool b => bool b
  | .number n => number n
  | .text s => text (some s)
  | .array items => array (ofValues items) none
  | .object members => object (ofMembers members) none

def ofValues : List Value → List Node
  | [] => []
  | v :: vs => ofValue v :: ofValues vs

def ofMembers : List (String × Value) → List (Key × Node)
  | [] => []
  | (k, v) :: ms => (.name k, ofValue v) :: ofMembers ms

end

end Node
end ArchSketch.Json
