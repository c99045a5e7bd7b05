import ArchSketch.Json.Record
import ArchSketch.Settings.Basic

/-! Settings as JSON. Reading lays the given members over the defaults. -/
namespace ArchSketch

open Json Number

namespace Json.Decoder

def word32 : Decoder UInt32 := fun n => (Decoder.natBelow UInt32.size n).map UInt32.ofNat

def word64 : Decoder UInt64 := fun n => (Decoder.natBelow UInt64.size n).map UInt64.ofNat

end Json.Decoder

namespace AiSettings

/-- Infinity has no numeral and is written as null. -/
def temperatureJson (x : Single) : Value :=
  if x.isFinite then .number (.ofSingle x) else .null

def toJson (ai : AiSettings) : Value :=
  .record [("provider", some (.text ai.provider)), ("apiKey", some (.text ai.apiKey)),
    ("model", some (.text ai.model)), ("baseUrl", ai.baseUrl.map .text),
    ("temperature", ai.temperature.map temperatureJson),
    ("maxTokens", ai.maxTokens.map fun n => .number (.ofNat n.toNat)),
    ("timeoutSecs", some (.number (.ofNat ai.timeoutSecs.toNat)))]

inductive Field where
  | provider
  | apiKey
  | model
  | baseUrl
  | temperature
  | maxTokens
  | timeoutSecs
  deriving DecidableEq, Repr

def record : Record Field where
  fields := [.provider, .apiKey, .model, .baseUrl, .temperature, .maxTokens, .timeoutSecs]
  mem_fields f := by cases f <;> decide
  name
    | .provider => "provider"
    | .apiKey => "apiKey"
    | .model => "model"
    | .baseUrl => "baseUrl"
    | .temperature => "temperature"
    | .maxTokens => "maxTokens"
    | .timeoutSecs => "timeoutSecs"
  aliases _ := []
  Value
    | .provider | .apiKey | .model => String
    | .baseUrl => Option String
    | .temperature => Option Single
    | .maxTokens => Option UInt32
    | .timeoutSecs => UInt64
  decode
    | .provider | .apiKey | .model => Decoder.string
    | .baseUrl => Decoder.string.optional
    | .temperature => Decoder.single.optional
    | .maxTokens => Decoder.word32.optional
    | .timeoutSecs => Decoder.word64
  absent
    | .provider => some AiSettings.default.provider
    | .apiKey => some AiSettings.default.apiKey
    | .model => some AiSettings.default.model
    | .baseUrl => some AiSettings.default.baseUrl
    | .temperature => some AiSettings.default.temperature
    | .maxTokens => some AiSettings.default.maxTokens
    | .timeoutSecs => some AiSettings.default.timeoutSecs

def decode : Decoder AiSettings := fun n => do
  let v ← record.read n
  return ⟨v .provider, v .apiKey, v .model, v .baseUrl, v .temperature, v .maxTokens,
    v .timeoutSecs⟩

def parse (text : String) : Except DecodeError AiSettings := Decoder.run decode text

end AiSettings

namespace ImageFormat

def decode : Decoder ImageFormat :=
  Decoder.choice [("png", png), ("svg", svg), ("pdf", pdf)]

end ImageFormat

namespace BackendSettings

def toJson : BackendSettings → Value
  | command program =>
    .record [("kind", some (.text "command")), ("program", program.map .text)]
  | server url => .record [("kind", some (.text "server")), ("url", some (.text url))]

inductive Kind where
  | command
  | server
  deriving DecidableEq, Repr

def Kind.decode : Decoder Kind
  | .text (some s) => Decoder.named [("command", command), ("server", server)] s
  | n => .error n.wrongKind

def programRecord : Record Unit := .single "program" Decoder.string.optional (some none)

def urlRecord : Record Unit := .single "url" Decoder.string none

/-- How many levels a value in the backend's object may have. A text that is kept has at most 127
levels, and three lead here. -/
def depthLeft : Nat := 124

/-- Goes over the members until all are known to be sound. The kind is read on the way; the other
members are kept for the record that the kind asks for. -/
def scanMember (seen : Option Kind × List (Key × Node)) :
    Key × Node → Except DecodeError (Option Kind × List (Key × Node))
  | (.missing, n) => .error (.text (n.keyFlaw false))
  | (.lone, _) => .error .malformed
  | (.name key, n) =>
    if key == "kind" then
      if seen.1.isSome then .error (.duplicateField "kind")
      else do return (some (← Kind.decode n), seen.2)
    else orFlaw (n.keepFlaw? depthLeft) (seen.1, seen.2 ++ [(.name key, n)])

def ofMembers (members : List (Key × Node)) : Kind → Except DecodeError BackendSettings
  | .command => return command ((← programRecord.readMembers members none) ())
  | .server => return server ((← urlRecord.readMembers members none) ())

def ofItems (items : List Node) : Kind → Except DecodeError BackendSettings
  | .command => return command ((← programRecord.readItems .invalidLength items none) ())
  | .server => return server ((← urlRecord.readItems .invalidLength items none) ())

/-- The kind comes as a member of its own, or as the first item of an array. -/
def decode : Decoder BackendSettings
  | .object members open? => do
    let (kind?, others) ← members.foldlM scanMember (none, [])
    match ← orFlaw open? kind? with
    | some kind => ofMembers others kind
    | none => .error (.missingField "kind")
  | .array [] open? => do orFlaw open? (); .error (.missingField "kind")
  | .array (first :: items) open? => do
    let kind ← Kind.decode first
    orFlaw ((Node.itemsKeepFlaw? depthLeft items).or open?) ()
    ofItems items kind
  | n => .error n.wrongKind

end BackendSettings

namespace RenderSettings

def toJson (r : RenderSettings) : Value :=
  .record [("outputDir", some (.text r.outputDir)), ("format", some (.text r.format.name)),
    ("backend", some r.backend.toJson)]

inductive Field where
  | outputDir
  | format
  | backend
  deriving DecidableEq, Repr

def record : Record Field where
  fields := [.outputDir, .format, .backend]
  mem_fields f := by cases f <;> decide
  name
    | .outputDir => "outputDir"
    | .format => "format"
    | .backend => "backend"
  aliases _ := []
  Value
    | .outputDir => String
    | .format => ImageFormat
    | .backend => BackendSettings
  decode
    | .outputDir => Decoder.string
    | .format => ImageFormat.decode
    | .backend => BackendSettings.decode
  absent
    | .outputDir => some RenderSettings.default.outputDir
    | .format => some RenderSettings.default.format
    | .backend => some RenderSettings.default.backend

def decode : Decoder RenderSettings := fun n => do
  let v ← record.read n
  return ⟨v .outputDir, v .format, v .backend⟩

end RenderSettings

namespace Settings

def toJson (s : Settings) : Value :=
  .record [("ai", some s.ai.toJson), ("render", some s.render.toJson)]

inductive Field where
  | ai
  | render
  deriving DecidableEq, Repr

def record : Record Field where
  fields := [.ai, .render]
  mem_fields f := by cases f <;> decide
  name
    | .ai => "ai"
    | .render => "render"
  aliases _ := []
  Value
    | .ai => AiSettings
    | .render => RenderSettings
  decode
    | .ai => AiSettings.decode
    | .render => RenderSettings.decode
  absent
    | .ai => some AiSettings.default
    | .render => some RenderSettings.default

def decode : Decoder Settings := fun n => do
  let v ← record.read n
  return ⟨v .ai, v .render⟩

def parse (text : String) : Except DecodeError Settings := Decoder.run decode text

end Settings
end ArchSketch
