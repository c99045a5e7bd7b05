import ArchSketch.Diagram.Level
import ArchSketch.Text.Blank
import ArchSketch.Text.Word

/-! Calls of drawing macros. A name is looked for at the border of a word, with an opening bracket
after it, blanks and line ends between them ignored. The names of the calls tell the level of a
diagram and whether it chooses its own styling. -/
namespace ArchSketch.Diagram

open Text

inductive Spelling where
  | word (w : List Char)
  | wordChars
  | either (a b : Spelling)
  | optional (a : Spelling)
  | joined (a b : Spelling)

def opensBracket (t : List Char) : Bool := (trimStart t).head? == some '('

def atWordBorder (inWord : Bool) (t : List Char) : Bool := inWord != t.head?.any isWord

namespace Spelling

def afterWordChars : List Char → List (List Char)
  | [] => []
  | c :: t => if isWord c then afterWordChars t ++ [t] else []

/-- What is left of a text after a name at its start, for each way to read the name; the ways that
are tried first come first. -/
def rests : Spelling → List Char → List (List Char)
  | word w, t => if w.isPrefixOf t then [t.drop w.length] else []
  | wordChars, t => afterWordChars t
  | either a b, t => a.rests t ++ b.rests t
  | optional a, t => a.rests t ++ [t]
  | joined a b, t => (a.rests t).flatMap b.rests

/-- `inWord` says that the text goes on in the middle of a word. -/
def isCalledFrom (s : Spelling) (inWord : Bool) : List Char → Bool
  | [] => false
  | c :: t =>
    (atWordBorder inWord (c :: t) && (s.rests (c :: t)).any opensBracket) ||
      s.isCalledFrom (isWord c) t

def isCalledIn (s : Spelling) (t : List Char) : Bool := s.isCalledFrom false t

def withExternal (s : Spelling) : Spelling := s.joined (.optional (.word "_Ext".toList))

def withStore (name : String) : Spelling :=
  .joined (.word name.toList)
    (.optional (.either (.word "Db".toList) (.word "Queue".toList)))

def ofLevel : Level → Spelling
  | .context =>
    .either (withExternal (.word "Person".toList))
      (.either (withExternal (withStore "System"))
        (.either (.word "System_Boundary".toList) (.word "Enterprise_Boundary".toList)))
  | .container =>
    .either (withExternal (withStore "Container")) (.word "Container_Boundary".toList)
  | .component => withExternal (withStore "Component")

def ofStyling : Spelling :=
  .either (.joined (.word "LAYOUT_".toList) .wordChars) (.word "HIDE_STEREOTYPE".toList)

end Spelling

def level? (t : List Char) : Option Level :=
  [Level.component, .container, .context].find? fun l => (Spelling.ofLevel l).isCalledIn t

def hasStyling (t : List Char) : Bool := Spelling.ofStyling.isCalledIn t

end ArchSketch.Diagram
