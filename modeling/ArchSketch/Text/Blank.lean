/-! White space and what is cut at it. A text is its list of characters. Blanks are exactly the
characters with the White_Space property, so cutting a line at blanks also takes line ends and
the wide spaces of other scripts. -/
namespace ArchSketch.Text

def isBlank (c : Char) : Bool :=
  let n := c.toNat
  (9 ≤ n && n ≤ 13) || n == 0x20 || n == 0x85 || n == 0xA0 || n == 0x1680 ||
    (0x2000 ≤ n && n ≤ 0x200A) || n == 0x2028 || n == 0x2029 || n == 0x202F || n == 0x205F ||
    n == 0x3000

def isInlineBlank (c : Char) : Bool := c == ' ' || c == '\t'

theorem isBlank_of_isInlineBlank {c : Char} (h : isInlineBlank c = true) : isBlank c = true := by
  simp only [isInlineBlank, Bool.or_eq_true, beq_iff_eq] at h
  rcases h with rfl | rfl <;> rfl

def trimStart (t : List Char) : List Char := t.dropWhile isBlank

def trimEnd (t : List Char) : List Char :=
  t.foldr (fun c r => if r.isEmpty && isBlank c then [] else c :: r) []

def trim (t : List Char) : List Char := trimEnd (trimStart t)

theorem trimEnd_cons (c : Char) (t : List Char) :
    trimEnd (c :: t) = if (trimEnd t).isEmpty && isBlank c then [] else c :: trimEnd t := rfl

def pieces (cut : Char → Bool) : List Char → List (List Char)
  | [] => [[]]
  | c :: t => if cut c then [] :: pieces cut t else (pieces cut t).modifyHead (c :: ·)

theorem pieces_ne_nil (cut : Char → Bool) (t : List Char) : pieces cut t ≠ [] := by
  induction t with
  | nil => simp [pieces]
  | cons c t ih => by_cases h : cut c <;> simp [pieces, h, ih]

def words (t : List Char) : List (List Char) := (pieces isBlank t).filter (!·.isEmpty)

/-- `inRun` says that the text goes on in the middle of a run of blanks. -/
def replaceBlanksFrom (new : List Char) (inRun : Bool) : List Char → List Char
  | [] => []
  | c :: t =>
    if isBlank c then (if inRun then [] else new) ++ replaceBlanksFrom new true t
    else c :: replaceBlanksFrom new false t

def replaceBlanks (new t : List Char) : List Char := replaceBlanksFrom new false t

def lines (t : List Char) : List (List Char) := pieces (· == '\n') t

def dropReturn (l : List Char) : List Char := if l.getLast? == some '\r' then l.dropLast else l

/-- The lines without their line ends: a line feed with or without a carriage return before it.
The last line may have none, and then a carriage return at its end stays. -/
def closedLines (t : List Char) : List (List Char) :=
  (lines t).dropLast.map dropReturn ++ (lines t).getLast?.toList.filter (!·.isEmpty)

def unlines (ls : List (List Char)) : List Char := List.intercalate ['\n'] ls

end ArchSketch.Text
