import ArchSketch.Text.Blank

/-! Paths as text. Slashes part a path into segments; empty segments and single dots after the
first one name nothing, and whatever stands at the end that names nothing is ignored. -/
namespace ArchSketch.Files

open Text

abbrev Segment := List Char

namespace Path

def dot : Segment := ['.']

def dotDot : Segment := ['.', '.']

def segments (p : String) : List Segment := pieces (· == '/') p.toList

def ofSegments (segments : List Segment) : String :=
  String.ofList (List.intercalate ['/'] segments)

def isIdle (s : Segment) : Bool := s.isEmpty || s == dot

def dropIdle (segments : List Segment) : List Segment :=
  segments.foldr (fun s rest => if rest.isEmpty && isIdle s then [] else s :: rest) []

def split (p : String) : Segment × List Segment :=
  match segments p with
  | [] => ([], [])
  | first :: others => (first, dropIdle others)

def isAbsolute (p : String) : Bool := p.toList.head? == some '/'

def join (dir name : String) : String :=
  if isAbsolute name || dir.isEmpty then name
  else if dir.toList.getLast? == some '/' then dir ++ name
  else dir ++ "/" ++ name

/-- The path without its last part; the root and the empty path have no parent. -/
def parent? (p : String) : Option String :=
  match split p with
  | ([], []) => none
  | (_, []) => some ""
  | (first, others) =>
    match dropIdle others.dropLast with
    | [] => some (if first.isEmpty then "/" else String.ofList first)
    | others => some (ofSegments (first :: others))

def stem (name : Segment) : Segment :=
  match (name.reverse.dropWhile (· != '.')).tail.reverse with
  | [] => name
  | stem => stem

def isName (s : Segment) : Bool := !isIdle s && s != dotDot

/-- The path with everything after the stem of its name replaced by a dot and `extension`; a path
that ends in no name stays as it is. -/
def setExtension (p : String) (extension : String) : String :=
  let (first, others) := split p
  let all := first :: others
  match all.getLast? with
  | some name =>
    if isName name then ofSegments (all.dropLast ++ [stem name ++ '.' :: extension.toList])
    else p
  | none => p

def extensionLength (name : Segment) : Nat :=
  if isName name then name.length - (stem name).length - 1 else 0

/-- The path with another extension in place of its own, which is first taken off its end. A name
of two dots and an extension is left with the two dots, and that is no name. -/
def withExtension (p : String) (extension : String) : String :=
  let (first, others) := split p
  let taken := ((first :: others).getLast?.map extensionLength).getD 0
  setExtension (String.ofList (p.toList.take (p.length - taken))) extension

end Path
end ArchSketch.Files
