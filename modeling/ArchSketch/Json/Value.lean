import ArchSketch.Json.Numeral

/-! JSON values and how they are written: on one line, or laid out with a member or item on each.
Text is written raw but for quotes, backslashes and control characters. -/
namespace ArchSketch.Json

inductive Value where
  | null
  | bool (b : Bool)
  | number (n : Numeral)
  | text (s : String)
  | array (items : List Value)
  | object (members : List (String × Value))

inductive Layout where
  | compact
  | indented
  deriving DecidableEq, Repr

namespace Layout

def line : Layout → (depth : Nat) → List Char
  | compact, _ => []
  | indented, depth => '\n' :: List.replicate (2 * depth) ' '

def colon : Layout → List Char
  | compact => [':']
  | indented => [':', ' ']

end Layout

def hexDigit (n : Nat) : Char := Nat.digitChar (n % 16)

def escape (c : Char) : List Char :=
  if c == '\x22' then ['\\', '\x22']
  else if c == '\\' then ['\\', '\\']
  else if c == '\x08' then ['\\', 'b']
  else if c == '\t' then ['\\', 't']
  else if c == '\n' then ['\\', 'n']
  else if c == '\x0c' then ['\\', 'f']
  else if c == '\r' then ['\\', 'r']
  else if c.toNat < 0x20 then ['\\', 'u', '0', '0', hexDigit (c.toNat / 16), hexDigit c.toNat]
  else [c]

def quote (s : String) : List Char := '\x22' :: s.toList.flatMap escape ++ ['\x22']

mutual

def Value.write (l : Layout) (depth : Nat) : Value → List Char
  | .null => "null".toList
  | .bool true => "true".toList
  | .bool false => "false".toList
  | .number n => n.text
  | .text s => quote s
  | .array [] => ['[', ']']
  | .array (v :: vs) =>
    '[' :: l.line (depth + 1) ++ v.write l (depth + 1) ++ writeItems l depth vs ++ l.line depth ++
      [']']
  | .object [] => ['\x7b', '\x7d']
  | .object ((k, v) :: ms) =>
    '\x7b' :: l.line (depth + 1) ++ quote k ++ l.colon ++ v.write l (depth + 1) ++
      writeMembers l depth ms ++ l.line depth ++ ['\x7d']

def writeItems (l : Layout) (depth : Nat) : List Value → List Char
  | [] => []
  | v :: vs => ',' :: l.line (depth + 1) ++ v.write l (depth + 1) ++ writeItems l depth vs

def writeMembers (l : Layout) (depth : Nat) : List (String × Value) → List Char
  | [] => []
  | (k, v) :: ms =>
    ',' :: l.line (depth + 1) ++ quote k ++ l.colon ++ v.write l (depth + 1) ++
      writeMembers l depth ms

end

namespace Value

def compact (v : Value) : String := String.ofList (v.write .compact 0)

def indented (v : Value) : String := String.ofList (v.write .indented 0)

def record (members : List (String × Option Value)) : Value :=
  .object (members.filterMap fun m => m.2.map (m.1, ·))

end Value
end ArchSketch.Json
