import ArchSketch.Number.Single
import ArchSketch.Render.Format

/-! The settings: which model is asked, and how and where diagrams are drawn. -/
namespace ArchSketch

open Number

structure AiSettings where
  provider : String
  apiKey : String
  model : String
  baseUrl : Option String
  temperature : Option Single
  maxTokens : Option UInt32
  timeoutSecs : UInt64
  deriving DecidableEq

namespace AiSettings

def default : AiSettings where
  provider := "ollama"
  apiKey := ""
  model := "llama3.1"
  baseUrl := none
  temperature := some (Single.nearest false (1 / 5))
  maxTokens := some 2048
  timeoutSecs := 300

def isConfigured (ai : AiSettings) : Bool :=
  !ai.provider.isEmpty && !ai.model.isEmpty &&
    (ai.provider == "ollama" || ai.baseUrl.isSome || !ai.apiKey.isEmpty)

end AiSettings

inductive BackendSettings where
  | command (program : Option String)
  | server (url : String)
  deriving DecidableEq, Repr

structure RenderSettings where
  outputDir : String
  format : ImageFormat
  backend : BackendSettings
  deriving DecidableEq, Repr

def RenderSettings.default : RenderSettings := ⟨"uml-diagram", .png, .command none⟩

structure Settings where
  ai : AiSettings
  render : RenderSettings
  deriving DecidableEq

def Settings.default : Settings := ⟨.default, .default⟩

end ArchSketch
