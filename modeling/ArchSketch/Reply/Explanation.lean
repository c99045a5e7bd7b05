import ArchSketch.Reply.Block

/-! The explanation in a model's reply: what stands under its label, or where there is no label
before the diagram, what leads up to the diagram. -/
namespace ArchSketch.Reply

open Text Diagram

def endsTag : List Char → Bool
  | '\n' :: _ => true
  | '\r' :: '\n' :: _ => true
  | c :: _ => isInlineBlank c
  | [] => false

/-- Where the diagram part begins: any fence that opens a line, a tagged fence anywhere, or a
start marker. -/
def diagramStart : Pattern Unit := fun atLineStart t =>
  if (atLineStart && (afterWord? fence (t.dropWhile isInlineBlank)).isSome) ||
      (afterTag? t).any endsTag || (afterWord? openingMarker t).isSome then some ()
  else none

def isEmphasis (c : Char) : Bool := c == '*' || c == '_'

def isDecoration (c : Char) : Bool := isInlineBlank c || isEmphasis c || c == '#'

/-- What follows one of the words, decorated or not, and a colon at the start of a line. -/
def label? (words : List (List Char)) : Pattern (List Char) := fun atLineStart t =>
  if atLineStart then
    match (afterAny? words (t.dropWhile isDecoration)).map (·.dropWhile isInlineBlank) with
    | some (':' :: rest) => some rest
    | _ => none
  else none

def explanationLabel : Pattern (List Char) := fun atLineStart t =>
  (label? ["explanation".toList] atLineStart t).map (·.dropWhile isEmphasis)

def diagramLabel : Pattern (List Char) := label? ["plantuml".toList, "diagram".toList]

def sectionEnd : Pattern Unit := fun atLineStart t =>
  ((diagramLabel atLineStart t).map fun _ => ()).or (diagramStart atLineStart t)

def labelled (t : List Char) : List Char :=
  match find? explanationLabel true t with
  | none => []
  | some (before, rest) =>
    if (textBefore diagramStart t).length < before.length then []
    else trim (textBefore sectionEnd rest)

def leading (t : List Char) : List Char := trim (textBefore diagramStart t)

def explanation (t : List Char) : List Char :=
  if (labelled t).isEmpty then leading t else labelled t

end ArchSketch.Reply
