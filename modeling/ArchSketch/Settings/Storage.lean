import ArchSketch.Files.Disk
import ArchSketch.Settings.Codec

/-! Settings in a file. A missing file stands for the defaults. New settings are written to a file
beside it that then takes its place, so that at no time half of them can be read. -/
namespace ArchSketch

open Files

inductive SettingsError where
  | io (e : IoError)
  | json (e : Json.DecodeError)
  deriving DecidableEq, Repr

namespace SettingsError

def ioMessage (e : IoError) : String := "settings I/O error: " ++ e.message

end SettingsError

namespace Settings

def directoryIn (home : String) : String := Path.join home ".c4forge"

def pathIn (home : String) : String := Path.join (directoryIn home) "settings.json"

def readFrom (s : Store) (path : String) : Except SettingsError Settings :=
  if !s.contains path then .ok default
  else match s.readText path with
    | .error e => .error (.io e)
    | .ok text => (parse text).mapError .json

/-- The settings in a file; the defaults when they cannot be read. -/
def load (s : Store) (path : String) : Settings :=
  match readFrom s path with
  | .ok settings => settings
  | .error _ => default

def fileText (s : Settings) : String := s.toJson.indented

def draftPath (path : String) : String := Path.withExtension path "json.tmp"

def saving (s : Settings) (path : String) : List Action :=
  ((Path.parent? path).map Action.makeDirectories).toList ++
    [.write (draftPath path) s.fileText.toUTF8, .rename (draftPath path) path]

def save (s : Settings) (path : String) (d : Disk) : Except IoError Unit × Disk :=
  d.performAll (s.saving path)

end Settings
end ArchSketch
