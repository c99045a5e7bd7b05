import ArchSketch.Diagram.Line
import ArchSketch.Text.Search

/-! Diagram blocks in a model's reply. A block stands in a fence whose first word is a diagram tag,
or between a pair of markers; blocks of one kind never overlap, and each is found from the left
where the one before it has ended. -/
namespace ArchSketch.Reply

open Text Diagram

def fence : List Char := "```".toList

def tags : List (List Char) :=
  ["c4plantuml".toList, "plantuml".toList, "puml".toList, "c4".toList]

def afterTag? (t : List Char) : Option (List Char) :=
  (afterWord? fence t).bind fun t => afterAny? tags (t.dropWhile isInlineBlank)

/-- The text after the line end that follows a tag directly or after a blank and more words. -/
def afterInfo? : List Char → Option (List Char)
  | '\n' :: t => some t
  | '\r' :: '\n' :: t => some t
  | c :: t =>
    if isInlineBlank c then
      match t.dropWhile (· != '\n') with
      | _ :: body => some body
      | [] => none
    else none
  | [] => none

abbrev Block := List Char × List Char

/-- A tagged fence at the start of the text; it is closed by the next three backticks. -/
def fenced? (t : List Char) : Option Block :=
  ((afterTag? t).bind afterInfo?).bind fun body =>
    find? (fun _ t => afterWord? fence t) true body

/-- A start marker with all up to the next end marker. The markers belong to the block. -/
def marked? (t : List Char) : Option Block :=
  (afterWord? openingMarker t).bind fun body =>
    (find? (fun _ t => afterWord? closingMarker t) true body).map fun found =>
      (t.take (t.length - found.2.length), found.2)

/-- `skip` characters still belong to the block found last. -/
def blocksFrom (block? : List Char → Option Block) : (skip : Nat) → List Char → List (List Char)
  | _, [] => []
  | skip + 1, _ :: t => blocksFrom block? skip t
  | 0, c :: t =>
    match block? (c :: t) with
    | some (block, rest) => block :: blocksFrom block? (t.length - rest.length) t
    | none => blocksFrom block? 0 t

def fencedBlocks (t : List Char) : List (List Char) := blocksFrom fenced? 0 t

def markedBlocks (t : List Char) : List (List Char) := blocksFrom marked? 0 t

def joinBlocks (blocks : List (List Char)) : List Char :=
  ((blocks.map trim).filter (!·.isEmpty)).flatMap (· ++ ['\n'])

/-- The diagram of a reply: its tagged fences, or where they hold nothing its marked blocks.
Empty when there is neither. -/
def source (t : List Char) : List Char :=
  if (joinBlocks (fencedBlocks t)).isEmpty then joinBlocks (markedBlocks t)
  else joinBlocks (fencedBlocks t)

end ArchSketch.Reply
