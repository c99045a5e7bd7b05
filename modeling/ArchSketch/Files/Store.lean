import ArchSketch.Files.Path

/-! A file store: directories and files below one root, without links. A location is the list of
names that lead there; the root is always a directory. -/
namespace ArchSketch.Files

inductive IoError where
  | notFound
  | notExecutable
  | permissionDenied
  | busy
  | taken
  | notDirectory
  | isDirectory
  | nameTooLong
  | tooManyLinks
  | zeroInName
  | invalidText
  | noParent
  | other (text : String)
  deriving DecidableEq, Repr

namespace IoError

def reason : IoError → String
  | notFound => "No such file or directory"
  | notExecutable => "Exec format error"
  | permissionDenied => "Permission denied"
  | busy => "Device or resource busy"
  | taken => "File exists"
  | notDirectory => "Not a directory"
  | isDirectory => "Is a directory"
  | nameTooLong => "File name too long"
  | tooManyLinks => "Too many levels of symbolic links"
  | zeroInName => "file name contained an unexpected NUL byte"
  | invalidText => "stream did not contain valid UTF-8"
  | noParent => "failed to create whole tree"
  | other text => text

def number? : IoError → Option Nat
  | notFound => some 2
  | notExecutable => some 8
  | permissionDenied => some 13
  | busy => some 16
  | taken => some 17
  | notDirectory => some 20
  | isDirectory => some 21
  | nameTooLong => some 36
  | tooManyLinks => some 40
  | _ => none

def message (e : IoError) : String :=
  match e.number? with
  | some n => e.reason ++ " (os error " ++ toString n ++ ")"
  | none => e.reason

end IoError

abbrev Location := List Segment

inductive Entry where
  | directory (entries : List (Segment × Entry))
  | file (content : ByteArray) (executable : Bool)

def Entry.isDirectory : Entry → Bool
  | directory _ => true
  | file .. => false

abbrev Folder := List (Segment × Entry)

namespace Folder

def remove (f : Folder) (name : Segment) : Folder := f.filter (·.1 != name)

def put (f : Folder) (name : Segment) (e : Entry) : Folder := (name, e) :: f.remove name

def change (act : Folder → Folder) : Location → Folder → Folder
  | [], f => act f
  | name :: l, f =>
    match f.lookup name with
    | some (.directory inner) => f.put name (.directory (change act l inner))
    | _ => f

def get? : Location → Folder → Option Entry
  | [], f => some (.directory f)
  | name :: l, f =>
    match f.lookup name with
    | some (.directory inner) => get? l inner
    | some e => if l.isEmpty then some e else none
    | none => none

end Folder

structure Store where
  root : Folder

/-- How many bytes a path may have. -/
def longestPath : Nat := 4095

/-- Where a path has led so far: the names on the way with the folders they stand in, the last one
first, and what is there. -/
structure Place where
  trail : List (Segment × Folder)
  content? : Option Entry

namespace Place

def location (p : Place) : Location := (p.trail.map (·.1)).reverse

def up (p : Place) : Place :=
  match p.trail with
  | [] => p
  | (_, f) :: trail => ⟨trail, some (.directory f)⟩

/-- Follows segments. Every segment needs a directory to stand in; the last one may lead to
nothing. -/
def follow (p : Place) : List Segment → Except IoError Place
  | [] => .ok p
  | segment :: segments =>
    match p.content? with
    | none => .error .notFound
    | some (.file ..) => .error .notDirectory
    | some (.directory f) =>
      if Path.isIdle segment then p.follow segments
      else if segment == Path.dotDot then p.up.follow segments
      else if 255 < (String.ofList segment).utf8ByteSize then .error .nameTooLong
      else follow ⟨(segment, f) :: p.trail, f.lookup segment⟩ segments

end Place

namespace Store

def empty : Store := ⟨[]⟩

def get? (s : Store) (l : Location) : Option Entry := s.root.get? l

def remove (s : Store) (l : Location) : Store :=
  match l.getLast? with
  | some name => ⟨Folder.change (·.remove name) l.dropLast s.root⟩
  | none => s

def put (s : Store) (l : Location) (e : Entry) : Store :=
  match l.getLast? with
  | some name => ⟨Folder.change (·.put name e) l.dropLast s.root⟩
  | none => s

def place (s : Store) (p : String) : Except IoError Place :=
  if p.isEmpty then .error .notFound
  else if p.toList.contains '\x00' then .error .zeroInName
  else if longestPath < p.utf8ByteSize then .error .nameTooLong
  else Place.follow ⟨[], some (.directory s.root)⟩ (Path.segments p)

def locate (s : Store) (p : String) : Except IoError Location := (s.place p).map (·.location)

def entry (s : Store) (p : String) : Except IoError Entry := do
  match (← s.place p).content? with
  | some e => return e
  | none => throw .notFound

def contains (s : Store) (p : String) : Bool := (s.entry p).isOk

def isDirectory (s : Store) (p : String) : Bool :=
  match s.entry p with
  | .ok e => e.isDirectory
  | .error _ => false

def read (s : Store) (p : String) : Except IoError ByteArray := do
  match ← s.entry p with
  | .directory _ => throw .isDirectory
  | .file content _ => return content

def readText (s : Store) (p : String) : Except IoError String := do
  match String.fromUTF8? (← s.read p) with
  | some text => return text
  | none => throw .invalidText

def dropSlashes (p : String) : String :=
  String.ofList ((p.toList.reverse.dropWhile (· == '/')).reverse)

def makeDirectory (s : Store) (p : String) : Except IoError Store := do
  let p := if (dropSlashes p).isEmpty then p else dropSlashes p
  let place ← s.place p
  if place.content?.isSome then throw .taken
  return s.put place.location (.directory [])

/-- Makes a directory and, before it, the ones it stands in that are missing. The store is that of
the moment when the work ended, well or not. -/
def makeDirectoriesFrom : (fuel : Nat) → String → Store → Except IoError Unit × Store
  | 0, _, s => (.error .noParent, s)
  | fuel + 1, p, s =>
    if p.isEmpty then (.ok (), s)
    else match s.makeDirectory p with
      | .ok s => (.ok (), s)
      | .error .notFound =>
        match Path.parent? p with
        | none => (.error .noParent, s)
        | some parent =>
          match makeDirectoriesFrom fuel parent s with
          | (.error e, s) => (.error e, s)
          | (.ok _, s) =>
            match s.makeDirectory p with
            | .ok s => (.ok (), s)
            | .error e => if s.isDirectory p then (.ok (), s) else (.error e, s)
      | .error e => if s.isDirectory p then (.ok (), s) else (.error e, s)

def makeDirectories (p : String) (s : Store) : Except IoError Unit × Store :=
  makeDirectoriesFrom (p.length + 1) p s

def write (s : Store) (p : String) (content : ByteArray) : Except IoError Store := do
  let place ← s.place p
  match place.content? with
  | some (.directory _) => throw .isDirectory
  | some (.file _ executable) => return s.put place.location (.file content executable)
  | none => return s.put place.location (.file content false)

def rename (s : Store) (src dst : String) : Except IoError Store := do
  let file ← s.entry src
  let source ← s.locate src
  let target ← s.place (dropSlashes dst)
  let last := (Path.segments (dropSlashes dst)).getLast?
  if last == some Path.dot || last == some Path.dotDot then throw .busy
  if dst.toList.getLast? == some '/' then throw .notDirectory
  if target.content?.any (·.isDirectory) then throw .isDirectory
  return (s.remove source).put target.location file

/-- What stands below a folder, each directory before its own entries, names in order; `fuel`
bounds how deep. -/
def listingFrom : (fuel : Nat) → Folder → List (Location × Entry)
  | 0, _ => []
  | fuel + 1, f =>
    (f.mergeSort fun a b => compare a.1 b.1 != .gt).flatMap fun (name, e) =>
      ([name], e) :: match e with
        | .directory inner => (listingFrom fuel inner).map fun (l, e) => (name :: l, e)
        | .file .. => []

def listing (s : Store) (l : Location) : List (Location × Entry) :=
  match s.get? l with
  | some (.directory f) => listingFrom longestPath f
  | _ => []

end Store
end ArchSketch.Files
