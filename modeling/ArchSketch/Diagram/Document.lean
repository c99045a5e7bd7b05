import ArchSketch.Diagram.Call
import ArchSketch.Diagram.Line
import ArchSketch.Diagram.Slip
import ArchSketch.Text.Search

/-! A diagram document: an optional title and the lines of the body. Whatever markers, library
includes and blank edges a source has, a document keeps only these two, and writing it puts the
markers, the includes its level needs and some styling around the body once each.

A source is taken in passes over its whole text: line ends are made alike, slips are repaired, and
then its lines are added to the document one by one. -/
namespace ArchSketch.Diagram

open Text

structure Document where
  title : Option (List Char)
  body : List (List Char)
  deriving DecidableEq, Repr

def isBlankLine (l : List Char) : Bool := (trim l).isEmpty

def trimLastLines (ls : List (List Char)) : List (List Char) :=
  ls.foldr (fun l rest => if rest.isEmpty && isBlankLine l then [] else l :: rest) []

def trimLines (ls : List (List Char)) : List (List Char) := trimLastLines (ls.dropWhile isBlankLine)

def libraryInclude : Level → String
  | .context => "!include <C4/C4_Context>"
  | .container => "!include <C4/C4_Container>"
  | .component => "!include <C4/C4_Component>"

/-- Each level's library builds on those of the levels around it. -/
def includes : Option Level → List (List Char)
  | none => []
  | some l => l.uptoHere.map fun l => (libraryInclude l).toList

def defaultStyling : List (List Char) :=
  ["LAYOUT_WITH_LEGEND()".toList, "HIDE_STEREOTYPE()".toList]

namespace Document

def empty : Document := ⟨none, []⟩

/-- The first title wins. -/
def addLine (d : Document) (line : List Char) : Document :=
  match afterMarker? openingMarker line with
  | some rest =>
    if d.title.isNone && !(trim rest).isEmpty then { d with title := some (trim rest) } else d
  | none =>
    if (afterMarker? closingMarker line).isSome || isLibraryInclude line then d
    else { d with body := d.body ++ [trimEnd line] }

def trimBody (d : Document) : Document := { d with body := trimLines d.body }

def ofSource (source : List Char) : Document :=
  let text := repairText (substitute ['\r', '\n'] ['\n'] source)
  ((closedLines text).foldl addLine empty).trimBody

def text (d : Document) : List Char := unlines d.body

def heading (d : Document) : List Char :=
  match d.title with
  | none => openingMarker
  | some title => openingMarker ++ ' ' :: title

def styling (d : Document) : List (List Char) := if hasStyling d.text then [] else defaultStyling

def render (d : Document) : List Char :=
  unlines (d.heading :: includes (level? d.text) ++ d.styling ++ d.body ++ [closingMarker])

end Document
end ArchSketch.Diagram

namespace ArchSketch

/-- The source as a document that draws on its own. Doing it again changes nothing. -/
def normalize (source : String) : String :=
  String.ofList (Diagram.Document.ofSource source.toList).render

/-- The most detailed level a source uses; a source without elements counts as context. -/
def inferLevel (source : String) : Level := (Diagram.level? source.toList).getD .context

end ArchSketch
