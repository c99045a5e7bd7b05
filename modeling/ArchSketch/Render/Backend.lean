import ArchSketch.Host.Process
import ArchSketch.Settings.Basic
import ArchSketch.Text.Blank
import ArchSketch.Text.Utf8

/-! What turns diagram source into the bytes of an image, and the reasons why that fails. -/
namespace ArchSketch

open Files

inductive RenderFailure where
  | unavailable (reason : String)
  | rejected (reason : String)
  | emptyOutput
  | io (e : IoError)
  | http (reason : String)
  deriving DecidableEq, Repr

def RenderFailure.message : RenderFailure → String
  | unavailable reason => "renderer unavailable: " ++ reason
  | rejected reason => "renderer rejected the diagram: " ++ reason
  | emptyOutput => "renderer produced no output"
  | io e => "I/O error: " ++ e.message
  | http reason => "HTTP error: " ++ reason

/-- A backend gives the image of a source, or the reason why there is none. It can look at the
store, and it gives the store as it leaves it. -/
abbrev Backend :=
  Store → (source : String) → ImageFormat → Except RenderFailure ByteArray × Store

namespace Backend

open Host

def answering (answer : Except RenderFailure ByteArray) : Backend := fun s _ _ => (answer, s)

def programArguments (format : ImageFormat) : List String :=
  ["-pipe", "-t" ++ format.name, "-charset", "UTF-8"]

def programName : String := "plantuml"

def resolve (m : Machine) (s : Store) : Option String → Except RenderFailure String
  | some program => .ok program
  | none =>
    match m.find? s programName with
    | some path => .ok path
    | none =>
      .error (.unavailable (programName ++ " not found in PATH: cannot find binary path"))

def ofExit (exit : Exit) : Except RenderFailure ByteArray :=
  if exit.status.isSuccess then .ok exit.output
  else
    .error (.rejected (programName ++ " exited with " ++ exit.status.text ++ ": " ++
      String.ofList (Text.trim (Text.utf8Lossy exit.errors))))

def command (m : Machine) (program : Option String) : Backend := fun s source format =>
  match resolve m s program with
  | .error e => (.error e, s)
  | .ok path =>
    match m.launch s path (programArguments format) source.toUTF8 with
    | .ok exit => (ofExit exit, exit.store)
    | .error e => (.error (.unavailable ("failed to start " ++ path ++ ": " ++ e.message)), s)

def endpoint (url : String) (format : ImageFormat) : String :=
  Store.dropSlashes url ++ "/" ++ format.name

def ofResponse (r : Response) : Except RenderFailure ByteArray :=
  if r.isSuccess then .ok r.body
  else
    let detail := (r.complaint.map String.toList).getD (Text.utf8Lossy r.body)
    .error (.rejected ("PlantUML server returned " ++ r.status ++ ": " ++
      String.ofList (Text.trim detail)))

def server (m : Machine) (url : String) : Backend := fun s source format =>
  match m.post (endpoint url format) source with
  | .ok response => (ofResponse response, s)
  | .error reason => (.error (.http reason), s)

def ofSettings (m : Machine) : BackendSettings → Backend
  | .command program => command m program
  | .server url => server m url

end Backend
end ArchSketch
