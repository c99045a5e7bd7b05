import ArchSketch.Files.Store

/-! A disk: a store that does what it is asked, unless something goes wrong. A mishap may refuse
an action or break it off halfway; after either the action has failed, and what it did stays
done. -/
namespace ArchSketch.Files

inductive Action where
  | makeDirectories (path : String)
  | write (path : String) (content : ByteArray)
  | rename (src dst : String)

inductive Mishap where
  | refused (e : IoError)
  /-- Only a directory `short` levels further up is made, only the first `short` bytes of a file
  are written; a rename is done or not done. -/
  | brokenOff (short : Nat) (e : IoError)

namespace Action

def settle (s : Store) : Except IoError Store → Except IoError Unit × Store
  | .ok s => (.ok (), s)
  | .error e => (.error e, s)

def perform (s : Store) : Action → Except IoError Unit × Store
  | makeDirectories path => Store.makeDirectories path s
  | write path content => settle s (s.write path content)
  | rename src dst => settle s (s.rename src dst)

def ancestor : (levels : Nat) → String → String
  | 0, path => path
  | levels + 1, path => ancestor levels ((Path.parent? path).getD "")

/-- What an action has done when it breaks off. -/
def performShort (s : Store) (short : Nat) : Action → Store
  | makeDirectories path => (Store.makeDirectories (ancestor short path) s).2
  | write path content => (settle s (s.write path (content.extract 0 short))).2
  | rename _ _ => s

end Action

structure Disk where
  store : Store
  /-- What happens to the actions to come, one after the other; after the last nothing does. -/
  mishaps : List (Option Mishap) := []

namespace Disk

def perform (d : Disk) (a : Action) : Except IoError Unit × Disk :=
  match d.mishaps with
  | some (.refused e) :: later => (.error e, ⟨d.store, later⟩)
  | some (.brokenOff short e) :: later => (.error e, ⟨a.performShort d.store short, later⟩)
  | none :: later => ((a.perform d.store).1, ⟨(a.perform d.store).2, later⟩)
  | [] => ((a.perform d.store).1, ⟨(a.perform d.store).2, []⟩)

def performAll (d : Disk) : List Action → Except IoError Unit × Disk
  | [] => (.ok (), d)
  | a :: as =>
    match d.perform a with
    | (.ok _, d) => d.performAll as
    | (.error e, d) => (.error e, d)

end Disk
end ArchSketch.Files
