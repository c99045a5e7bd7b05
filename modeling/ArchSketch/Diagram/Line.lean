import ArchSketch.Text.Blank
import ArchSketch.Text.Case
import ArchSketch.Text.Word

/-! How a single line of diagram source is told apart: one of the two markers around a diagram, an
include of a level's library, or neither. -/
namespace ArchSketch.Diagram

open Text

def openingMarker : List Char := "@startuml".toList

def closingMarker : List Char := "@enduml".toList

/-- What follows a marker that begins the line; a longer word is no marker. -/
def afterMarker? (marker line : List Char) : Option (List Char) :=
  (afterWord? marker (trimStart line)).filter atWordEnd

def libraryNames : List (List Char) :=
  ["c4_context".toList, "c4_container".toList, "c4_component".toList]

/-- The end of an include: an optional file extension and closing bracket, then nothing but a
comment. -/
def endsInclude (t : List Char) : Bool :=
  let t := (afterWord? ".puml".toList t).getD t
  let t := (afterWord? ['>'] t).getD t
  match trimStart t with
  | [] => true
  | c :: _ => c == '\''

def namesLibrary : List Char → Bool
  | [] => false
  | c :: t =>
    (afterAny? libraryNames (c :: t)).any endsInclude || (!isBlank c && namesLibrary t)

def afterBlanks? (t : List Char) : Option (List Char) :=
  if t.head?.any isBlank then some (trimStart t) else none

def isLibraryInclude (line : List Char) : Bool :=
  match afterWord? "!include".toList (trimStart line) with
  | none => false
  | some t => (afterBlanks? ((afterWord? "url".toList t).getD t)).any namesLibrary

end ArchSketch.Diagram
