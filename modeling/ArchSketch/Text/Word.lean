import ArchSketch.Text.Word.Scripts
import ArchSketch.Text.Word.Planes

/-! Word characters: letters, marks, decimal digits, connecting punctuation (the underscore and
its kin) and the two joiners, in every script. A word is a maximal run of them. -/
namespace ArchSketch.Text

def isAsciiWord (c : Char) : Bool := c.isAlphanum || c == '_'

def Word.ranges : Ranges :=
  Word.from0080 ++ Word.from0900 ++ Word.from0E00 ++ Word.from2000 ++ Word.from10000 ++
    Word.from11A00

def isWord (c : Char) : Bool :=
  if c.toNat < 0x80 then isAsciiWord c else Word.ranges.has c.toNat

def atWordEnd (t : List Char) : Bool := !t.head?.any isWord

end ArchSketch.Text
