import ArchSketch.Conversation.Turn
import ArchSketch.Diagram.Rules
import ArchSketch.Text.Blank

/-! What a model is told. A prompt is the instructions, the conversation so far turn by turn, and
the new request. A design that was drawn travels in the turn that presented it, so that the model
can revise it. -/
namespace ArchSketch

inductive Role where
  | system
  | user
  | assistant
  deriving DecidableEq, Repr

structure Message where
  role : Role
  content : String
  deriving DecidableEq, Repr

namespace Prompt

def exampleDiagram : String :=
  "@startuml
!include <C4/C4_Context>

Person(customer, \"Customer\", \"Orders books online\")
System(store, \"Book Store\", \"Lets customers browse and buy books\")
System_Ext(payments, \"Payment Provider\", \"Processes card payments\")

Rel(customer, store, \"Browses and orders from\")
Rel(store, payments, \"Charges orders through\")
@enduml"

def instructions : String :=
  "You are a software architect who designs systems and draws them as C4 model diagrams in " ++
    "C4-PlantUML.

For every request:
1. Think about the users, software systems, containers and components involved.
2. Pick the C4 level that answers the request best (context, container or component).
3. Reply with a short explanation of the design, then the diagram.

Answer in exactly this layout:

EXPLANATION:
<a few sentences describing the design and the main decisions>

PLANTUML:
```plantuml
<the complete diagram>
```

If the request is too vague to design anything, ask one clarifying question and do not " ++
    "include a diagram.

RULES:
" ++ Diagram.rules ++
  "

A correct context diagram:
```plantuml
" ++ exampleDiagram ++
  "
```"

def fenced (source : String) : String :=
  "```plantuml\n" ++ String.ofList (Text.trimEnd source.toList) ++ "\n```"

/-- What is sent for a turn: its text, and after a blank line the design it presents if that was
drawn. -/
def content (t : Turn) : String :=
  match t.design with
  | some d =>
    if d.verdict.isDrawn && !d.source.isEmpty then t.text ++ "\n\n" ++ fenced d.source else t.text
  | none => t.text

def role : Speaker → Role
  | .user => .user
  | .assistant => .assistant

def ofTurn (t : Turn) : Message := ⟨role t.speaker, content t⟩

def assemble (request : String) (history : Conversation) : List Message :=
  ⟨.system, instructions⟩ :: history.map ofTurn ++ [⟨.user, request⟩]

end Prompt
end ArchSketch
