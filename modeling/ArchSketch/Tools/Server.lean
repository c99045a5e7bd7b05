import ArchSketch.Designer.Designer
import ArchSketch.Diagram.Template
import ArchSketch.Settings.Storage
import ArchSketch.Text.Base64
import ArchSketch.Tools.Request

/-! Answering tool calls. The settings are read anew for each call, so that changes to their file
count at once. -/
namespace ArchSketch

inductive Content where
  | text (s : String)
  | image (data mediaType : String)
  deriving DecidableEq, Repr

structure ToolResult where
  content : List Content
  isError : Bool
  deriving DecidableEq, Repr

namespace Content

open Json

def toJson : Content → Value
  | text s => .object [("type", .text "text"), ("text", .text s)]
  | image data mediaType =>
    .object [("type", .text "image"), ("data", .text data), ("mimeType", .text mediaType)]

end Content

namespace ToolResult

open Json

def success (s : String) : ToolResult := ⟨[.text s], false⟩

def failure (s : String) : ToolResult := ⟨[.text s], true⟩

def toJson (r : ToolResult) : Value :=
  .object [("content", .array (r.content.map Content.toJson)), ("isError", .bool r.isError)]

end ToolResult

structure Server where
  settingsPath : String
  machine : Host.Machine
  transport : Transport

namespace Server

def settings (s : Server) : StateM Session Settings :=
  fun session => (Settings.load session.disk.store s.settingsPath, session)

def notConfigured (s : Server) (ai : AiSettings) : ToolResult :=
  .failure ("AI provider '" ++ ai.provider ++ "' is not configured: set apiKey or baseUrl in " ++
    s.settingsPath)

def design (s : Server) (request : String) (history : Conversation) :
    StateM Session ToolResult := do
  let settings ← s.settings
  if settings.ai.isConfigured then
    let reply ← (Designer.ofSettings s.transport s.machine settings).design request history
    let text := reply.toJson.indented
    match reply.outcome with
    | .succeeded | .noDiagramFound => return .success text
    | .renderFailed | .modelFailed => return .failure text
  else return s.notConfigured settings.ai

def extract (reply : String) : ToolResult :=
  let e := ArchSketch.extract reply
  .success (Json.Value.object [("diagramSource", .text e.source),
    ("explanation", .text e.explanation)]).compact

def normalize (source : String) : ToolResult :=
  let source := ArchSketch.normalize source
  .success (source ++ "\n\n' diagram type: " ++ (inferLevel source).name)

def renderFailed (e : RenderFailure) : ToolResult :=
  .failure ("diagram rendering failed: " ++ e.message)

def render (s : Server) (source : String) (inImage : Bool) : StateM Session ToolResult := do
  let settings ← s.settings
  let renderer := Renderer.ofSettings s.machine settings.render
  let source := ArchSketch.normalize source
  if inImage then
    match ← Session.atWork (renderer.bytes source) with
    | .ok bytes => return ⟨[.image (Text.base64 bytes) renderer.format.mediaType], false⟩
    | .error e => return renderFailed e
  else
    match ← Session.atWork (renderer.file source) with
    | .ok artifact => return .success ("Rendered " ++ artifact.path)
    | .error e => return renderFailed e

def template (systemName : String) (level : Option Level) : ToolResult :=
  if systemName.toList.all Text.isBlank then .failure "system_name must not be empty"
  else .success (starterDiagram (level.getD .context) systemName)

def checkModel (s : Server) : StateM Session ToolResult := do
  let settings ← s.settings
  let ai := settings.ai
  if ai.isConfigured then
    if (Model.ofSettings s.transport ai).isHealthy then
      return .success (ai.provider ++ " (" ++ ai.model ++ ") is answering.")
    else
      return .failure (ai.provider ++ " (" ++ ai.model ++ ") did not answer. Check " ++
        s.settingsPath ++ ".")
  else return s.notConfigured ai

def answer (s : Server) : ToolCall → StateM Session ToolResult
  | .design request history => s.design request history
  | .extract reply => return extract reply
  | .normalize source => return normalize source
  | .render source inImage => s.render source inImage
  | .template systemName level => return template systemName level
  | .checkModel => s.checkModel
  | .getRules => return .success Diagram.rules

def call (s : Server) (tool : String) (arguments : Json.Node) :
    StateM Session (Except CallError ToolResult) := do
  match ToolCall.read tool arguments with
  | .ok c => return .ok (← s.answer c)
  | .error e => return .error e

end Server
end ArchSketch
