import ArchSketch.Diagram.Document
import ArchSketch.Text.Case
import ArchSketch.Text.Search

/-! Starter diagrams for a named system. A template is a text with marks in it; the name of the
system and its alias are put in where the marks stand. -/
namespace ArchSketch

open Text

namespace Diagram

def aliasOf (name : List Char) : List Char := replaceBlanks ['_'] (lower (trim name))

def nameMark : List Char := "\x7bsystemName\x7d".toList

def aliasMark : List Char := "\x7bsystemAlias\x7d".toList

inductive Piece where
  | text (s : String)
  | systemName
  | systemAlias

def Piece.written : Piece → List Char
  | .text s => s.toList
  | .systemName => nameMark
  | .systemAlias => aliasMark

abbrev Template := List Piece

namespace Template

def context : Template :=
  [.text "@startuml
!include <C4/C4_Context>

title System Context diagram for ", .systemName, .text "

Person(user, \"User\", \"A person who uses ", .systemName, .text ".\")
System(", .systemAlias, .text ", \"", .systemName, .text "\", \"The system being designed.\")
System_Ext(external, \"External System\", \"A system ", .systemName, .text " depends on.\")

Rel(user, ", .systemAlias, .text ", \"Uses\")
Rel(", .systemAlias, .text ", external, \"Calls\")

LAYOUT_WITH_LEGEND()
@enduml
"]

def container : Template :=
  [.text "@startuml
!include <C4/C4_Context>
!include <C4/C4_Container>

title Container diagram for ", .systemName, .text "

Person(user, \"User\", \"A person who uses ", .systemName, .text ".\")

System_Boundary(", .systemAlias, .text ", \"", .systemName, .text "\") \x7b
    Container(web_app, \"Web Application\", \"\", \"Serves the user interface.\")
    Container(api, \"API\", \"\", \"Handles requests from the web application.\")
    ContainerDb(database, \"Database\", \"\", \"Stores ", .systemName, .text " data.\")
\x7d

Rel(user, web_app, \"Uses\", \"HTTPS\")
Rel(web_app, api, \"Calls\", \"JSON/HTTPS\")
Rel(api, database, \"Reads from and writes to\")

LAYOUT_WITH_LEGEND()
@enduml
"]

def component : Template :=
  [.text "@startuml
!include <C4/C4_Context>
!include <C4/C4_Container>
!include <C4/C4_Component>

title Component diagram for the ", .systemName, .text " API

Container(web_app, \"Web Application\", \"\", \"Serves the user interface.\")
ContainerDb(database, \"Database\", \"\", \"Stores ", .systemName, .text " data.\")

Container_Boundary(", .systemAlias, .text "_api, \"", .systemName, .text " API\") \x7b
    Component(controller, \"Request Handler\", \"\", \"Accepts requests from the web application.\")
    Component(service, \"Domain Service\", \"\", \"Implements the ", .systemName,
  .text " business rules.\")
    Component(repository, \"Repository\", \"\", \"Persists domain objects.\")
\x7d

Rel(web_app, controller, \"Calls\", \"JSON/HTTPS\")
Rel(controller, service, \"Uses\")
Rel(service, repository, \"Uses\")
Rel(repository, database, \"Reads from and writes to\")

LAYOUT_WITH_LEGEND()
@enduml
"]

def ofLevel : Level → Template
  | .context => context
  | .container => container
  | .component => component

def written (t : Template) : List Char := t.flatMap Piece.written

/-- The name is put in first, so a mark in the name stands for the alias as well. -/
def fill (t : Template) (name : List Char) : List Char :=
  substitute aliasMark (aliasOf name) (substitute nameMark (trim name) t.written)

end Template
end Diagram

def systemAlias (name : String) : String := String.ofList (Diagram.aliasOf name.toList)

def starterDiagram (level : Level) (name : String) : String :=
  String.ofList ((Diagram.Template.ofLevel level).fill name.toList)

def starterFor (source name : String) : String := starterDiagram (inferLevel source) name

end ArchSketch
