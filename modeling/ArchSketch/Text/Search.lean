/-! The first place in a text where a pattern fits, and the replacing of every occurrence of a text.
A pattern sees whether it stands at the start of a line, and the text from there on. -/
namespace ArchSketch.Text

abbrev Pattern (α : Type) := Bool → List Char → Option α

def find? {α : Type} (p : Pattern α) : Bool → List Char → Option (List Char × α)
  | atLineStart, [] => (p atLineStart []).map ([], ·)
  | atLineStart, c :: t =>
    match p atLineStart (c :: t) with
    | some a => some ([], a)
    | none => (find? p (c == '\n') t).map fun found => (c :: found.1, found.2)

def textBefore {α : Type} (p : Pattern α) (t : List Char) : List Char :=
  ((find? p true t).map (·.1)).getD t

/-- Every occurrence of `old`, from the left and without overlap, becomes `new`; the first `skip`
characters belong to an occurrence already replaced. -/
def substituteFrom (old new : List Char) : (skip : Nat) → List Char → List Char
  | _, [] => []
  | skip + 1, _ :: t => substituteFrom old new skip t
  | 0, c :: t =>
    if old.isPrefixOf (c :: t) then new ++ substituteFrom old new (old.length - 1) t
    else c :: substituteFrom old new 0 t

def substitute (old new t : List Char) : List Char := substituteFrom old new 0 t

end ArchSketch.Text
