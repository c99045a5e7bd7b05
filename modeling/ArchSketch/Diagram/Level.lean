/-! The levels a software architecture is drawn at, from the people around a system down to the
parts of one of its processes. -/
namespace ArchSketch

inductive Level where
  | context
  | container
  | component
  deriving DecidableEq, Repr

structure UnknownName where
  name : String
  deriving DecidableEq, Repr

/-- The choice that `text` names in any letter case of ASCII. -/
def choose {α : Type} (name : α → String) (choices : List α) (text : String) :
    Except UnknownName α :=
  let lowered := String.ofList (text.toList.map Char.toLower)
  match choices.find? (name · == lowered) with
  | some choice => .ok choice
  | none => .error ⟨lowered⟩

namespace Level

def all : List Level := [.context, .container, .component]

def name : Level → String
  | context => "context"
  | container => "container"
  | component => "component"

def ofName (text : String) : Except UnknownName Level := choose name all text

def unknownMessage (e : UnknownName) : String := "unknown diagram type: " ++ e.name

def depth : Level → Nat
  | context => 0
  | container => 1
  | component => 2

def uptoHere (l : Level) : List Level := all.filter (·.depth ≤ l.depth)

end Level
end ArchSketch
