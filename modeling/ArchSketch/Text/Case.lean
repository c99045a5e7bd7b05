import ArchSketch.Text.Case.Properties
import ArchSketch.Text.Case.Runs

/-! Letter case. Lowercasing is the full mapping: one character may become two, and a capital
sigma becomes the final form where a word ends in it. Patterns compare letters folded: the long s
counts as s and the kelvin sign as k, which are the only other characters that fold to a letter
of ASCII. -/
namespace ArchSketch.Text

def isCased (c : Char) : Bool :=
  if c.toNat < 0x80 then c.isAlpha else Case.casedRanges.has c.toNat

def isCaseIgnorable (c : Char) : Bool :=
  if c.toNat < 0x80 then c == '\'' || c == '.' || c == ':' || c == '^' || c == '\x60'
  else (Case.lowIgnorableRanges ++ Case.highIgnorableRanges).has c.toNat

/-- The lower case of a character on its own; the dotted capital I keeps its dot as a mark. -/
def lowerChar (c : Char) : List Char :=
  if c.toNat < 0x80 then [c.toLower]
  else if c == 'İ' then ['i', '\u0307']
  else [((Case.runs.findSome? (Case.Run.image? · c.toNat)).map Char.ofNat).getD c]

def meetsCased (t : List Char) : Bool := (t.find? (!isCaseIgnorable ·)).any isCased

/-- `afterCased` says whether the text before ends in a letter with case, ignorable characters
passed over. -/
def lowerFrom (afterCased : Bool) : List Char → List Char
  | [] => []
  | c :: t =>
    let low := if c == 'Σ' then [if afterCased && !meetsCased t then 'ς' else 'σ'] else lowerChar c
    low ++ lowerFrom (if isCaseIgnorable c then afterCased else isCased c) t

def lower (t : List Char) : List Char := lowerFrom false t

def fold (c : Char) : Char :=
  if c == 'ſ' then 's' else if c == '\u212A' then 'k' else c.toLower

/-- What follows `word`, which is given in lower case, when the text starts with it in any letter
case. -/
def afterWord? : List Char → List Char → Option (List Char)
  | [], t => some t
  | _ :: _, [] => none
  | w :: word, c :: t => if fold c == w then afterWord? word t else none

def afterAny? (words : List (List Char)) (t : List Char) : Option (List Char) :=
  words.findSome? (afterWord? · t)

end ArchSketch.Text
