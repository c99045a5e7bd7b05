import ArchSketch.Diagram.Rules

/-! What callers are told about the tools. -/
namespace ArchSketch

structure Argument where
  name : String
  description : String
  isRequired : Bool
  deriving DecidableEq, Repr

structure ToolInfo where
  name : String
  description : String
  arguments : List Argument
  deriving DecidableEq, Repr

namespace ToolInfo

def checkModel : ToolInfo :=
  ⟨"check_model", "Check whether the configured language model is reachable and answering", []⟩

def design : ToolInfo where
  name := "design"
  description :=
    "Design a software architecture from a free-text request. Asks the configured language " ++
    "model for a C4 diagram, repairs the C4-PlantUML it returns and renders it to the output " ++
    "directory. Returns \x7boutcome, result: \x7buserRequest, explanation, diagramSource, " ++
    "diagramPath?, diagramFilename?, success, errorMessage?, clarificationNeeded\x7d, turn\x7d. " ++
    "Append the request and the returned turn to history for follow-up requests. When " ++
    "clarificationNeeded is true the explanation is a question for the user."
  arguments :=
    [⟨"request",
      "Free-text description of the system to design, or a change to the previous design", true⟩,
    ⟨"history",
      "Earlier turns of this conversation, oldest first. Omit for a fresh conversation.", false⟩]

def extract : ToolInfo where
  name := "extract"
  description :=
    "Split a raw language-model reply into its explanation and C4-PlantUML source. Returns " ++
    "\x7bexplanation, diagramSource\x7d; diagramSource is empty when the reply contains no " ++
    "diagram."
  arguments :=
    [⟨"reply", "Raw model reply to pull the explanation and diagram source out of", true⟩]

def getRules : ToolInfo :=
  ⟨"get_rules", "Get the C4-PlantUML authoring rules diagrams should follow", []⟩

def normalize : ToolInfo where
  name := "normalize"
  description :=
    "Repair C4-PlantUML source: adds @startuml/@enduml, the C4 standard-library includes for " ++
    "the level used and default layout, and rewrites Element/alias mistakes. Returns the source " ++
    "followed by the detected diagram type."
  arguments :=
    [⟨"source", "C4-PlantUML source, with or without @startuml/@enduml and includes", true⟩]

def render : ToolInfo where
  name := "render"
  description :=
    "Render C4-PlantUML source with the configured PlantUML backend and format. Writes " ++
    "diagram_<timestamp>.<ext> into the output directory and returns its path, or returns the " ++
    "image inline when inline is true."
  arguments :=
    [⟨"source", "C4-PlantUML source to render. It is normalized first.", true⟩,
    ⟨"inline", "Return the image inline (base64) instead of writing it to the output directory",
      false⟩]

def template : ToolInfo where
  name := "template"
  description :=
    "Get a starter C4-PlantUML diagram for a named system at the given level (context, " ++
    "container or component)."
  arguments :=
    [⟨"system_name", "Name of the system the diagram is about, e.g. \"Online Book Store\"", true⟩,
    ⟨"kind", "\"context\", \"container\" or \"component\". Default: context.", false⟩]

def all : List ToolInfo := [checkModel, design, extract, getRules, normalize, render, template]

end ToolInfo

def usage : String :=
  "# c4forge

Designs software architectures as C4 model diagrams and renders them with PlantUML.

- `design` runs the whole pipeline: language model, extraction, repair, rendering. " ++
  "Pass earlier turns as `history` to refine a design; send each returned `turn` back " ++
  "unchanged so its diagram travels with it.
- `extract`, `normalize` and `render` expose the individual steps for diagrams you write " ++
  "yourself.
- `template` gives a starter diagram to edit.
- `check_model` tells whether the configured model is reachable.

Settings live in ~/.c4forge/settings.json.

## C4-PlantUML Rules
" ++ Diagram.rules

end ArchSketch
