import ArchSketch.Text.Blank

/-! A common slip in element calls: the opening bracket is written as a slash, as in
`Person/customer, "Customer")`. Only the head of the line changes when it is repaired. A whole
text is repaired from the left, wherever a slip stands at the start of a line. -/
namespace ArchSketch.Diagram

open Text

structure Slip where
  indent : List Char
  name : List Char
  aliasName : List Char
  rest : List Char

namespace Slip

def isAliasChar (c : Char) : Bool := c.isAlphanum || c == '_'

def isNameChar (c : Char) : Bool := c.isAlpha || c == '_'

def isName (t : List Char) : Bool :=
  t.head?.any Char.isUpper && (pieces (· == '_') t).all (!·.isEmpty)

def read? (line : List Char) : Option Slip :=
  let text := line.dropWhile isInlineBlank
  let name := text.takeWhile isNameChar
  match text.dropWhile isNameChar with
  | '/' :: text =>
    let aliasName := text.takeWhile isAliasChar
    match (text.dropWhile isAliasChar).dropWhile isInlineBlank with
    | ',' :: rest =>
      if isName name && !aliasName.isEmpty then
        some ⟨line.takeWhile isInlineBlank, name, aliasName, rest⟩
      else none
    | _ => none
  | _ => none

def head (s : Slip) : List Char := s.indent ++ s.name ++ '(' :: s.aliasName ++ [',']

def repaired (s : Slip) : List Char := s.head ++ s.rest

end Slip

def repair (line : List Char) : List Char := ((Slip.read? line).map Slip.repaired).getD line

/-- The first `skip` characters belong to a slip already repaired. -/
def repairFrom (atLineStart : Bool) : (skip : Nat) → List Char → List Char
  | _, [] => []
  | skip + 1, c :: t => repairFrom (c == '\n') skip t
  | 0, c :: t =>
    match if atLineStart then Slip.read? (c :: t) else none with
    | some s => s.head ++ repairFrom (c == '\n') (t.length - s.rest.length) t
    | none => c :: repairFrom (c == '\n') 0 t

def repairText (t : List Char) : List Char := repairFrom true 0 t

end ArchSketch.Diagram
