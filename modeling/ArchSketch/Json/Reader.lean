import ArchSketch.Json.Node

/-! Reading the tree of a JSON text. A reader never gives up: it puts the flaw it meets into the
tree, and nothing after the flaw. -/
namespace ArchSketch.Json

inductive Next where
  | more (rest : List Char)
  | closed (rest : List Char)
  | flawed (f : Flaw)

def next (close : Char) (t : List Char) : Next :=
  match skipSpace t with
  | [] => .flawed .truncated
  | c :: t =>
    if c == ',' then .more t else if c == close then .closed t else .flawed .malformed

mutual

/-- Reads a value; `fuel` bounds the nested calls, of which no character needs more than two. -/
def readValue : (fuel : Nat) → List Char → Node × List Char
  | 0, _ => (.broken .other .malformed .malformed, [])
  | fuel + 1, t =>
    match skipSpace t with
    | [] => (.broken .nothing .truncated .truncated, [])
    | c :: t =>
      if c == '\x22' then
        match scanText t with
        | .done s rest => (.text s, rest)
        | .broken kept skipped => (.broken .quote kept skipped, [])
      else if c == '[' then
        match skipSpace t with
        | ']' :: rest => (.array [] none, rest)
        | _ =>
          let (items, open?, rest) := readItems fuel t
          (.array items open?, rest)
      else if c == '\x7b' then
        match skipSpace t with
        | '\x7d' :: rest => (.object [] none, rest)
        | _ =>
          let (members, open?, rest) := readMembers fuel t
          (.object members open?, rest)
      else if c == '-' || c.isDigit then
        match scanNumber (c :: t) with
        | .done n rest => (.number n, rest)
        | .broken kept skipped => (.broken .other kept skipped, [])
      else if c == 'n' then readWord .null "ull".toList t
      else if c == 't' then readWord (.bool true) "rue".toList t
      else if c == 'f' then readWord (.bool false) "alse".toList t
      else (.broken .other .malformed .malformed, [])
where
  readWord (value : Node) (word t : List Char) : Node × List Char :=
    match scanWord word t with
    | .done _ rest => (value, rest)
    | .broken kept skipped => (.broken .other kept skipped, [])

def readItems : (fuel : Nat) → List Char → List Node × Option Flaw × List Char
  | 0, _ => ([], some .malformed, [])
  | fuel + 1, t =>
    let (item, t) := readValue fuel t
    match next ']' t with
    | .more t =>
      let (items, open?, rest) := readItems fuel t
      (item :: items, open?, rest)
    | .closed rest => ([item], none, rest)
    | .flawed f => ([item], some f, [])

def readMembers : (fuel : Nat) → List Char → List (Key × Node) × Option Flaw × List Char
  | 0, _ => ([], some .malformed, [])
  | fuel + 1, t =>
    match skipSpace t with
    | '\x22' :: keyText =>
      match scanText keyText with
      | .broken kept skipped => ([(.missing, .broken .quote kept skipped)], none, [])
      | .done key t =>
        let key := (key.map Key.name).getD .lone
        match skipSpace t with
        | ':' :: t =>
          let (value, t) := readValue fuel t
          match next '\x7d' t with
          | .more t =>
            let (members, open?, rest) := readMembers fuel t
            ((key, value) :: members, open?, rest)
          | .closed rest => ([(key, value)], none, rest)
          | .flawed f => ([(key, value)], some f, [])
        | [] => ([(key, .broken .nothing .truncated .truncated)], none, [])
        | _ => ([(key, .broken .other .malformed .malformed)], none, [])
    | _ => ([(.missing, (readValue fuel t).1)], none, [])

end

def Node.read (t : List Char) : Node × List Char := readValue (2 * t.length + 2) t

end ArchSketch.Json
