import ArchSketch.Conversation.Prompt
import ArchSketch.Settings.Basic

/-! Language models. A model answers a prompt with text or an error. Which models there are is
known by the names of their providers; how a provider is reached is left open. -/
namespace ArchSketch

inductive ModelError where
  | unknownProvider (provider : String)
  | build (reason : String)
  | chat (reason : String)
  | emptyReply
  deriving DecidableEq, Repr

def ModelError.message : ModelError → String
  | unknownProvider provider => "unknown provider: " ++ provider
  | build reason => "build LLM: " ++ reason
  | chat reason => "chat: " ++ reason
  | emptyReply => "LLM returned no text"

abbrev Model := List Message → Except ModelError String

inductive Provider where
  | openAi
  | anthropic
  | google
  | ollama
  | groq
  | mistral
  | deepSeek
  deriving DecidableEq, Repr

namespace Provider

def all : List Provider := [.openAi, .anthropic, .google, .ollama, .groq, .mistral, .deepSeek]

def title : Provider → String
  | openAi => "OpenAI"
  | anthropic => "Anthropic"
  | google => "Google"
  | ollama => "Ollama"
  | groq => "Groq"
  | mistral => "Mistral"
  | deepSeek => "DeepSeek"

def name (p : Provider) : String := p.title.toLower

def ofName? (name : String) : Option Provider := all.find? (·.name == name)

def needsKey (p : Provider) : Bool := p != ollama

end Provider

/-- How a provider is asked: with the settings, the instructions, and the other messages. The
answer may be missing. -/
abbrev Transport :=
  AiSettings → Provider → (instructions : String) → List Message → Except ModelError (Option String)

namespace Model

def instructionsOf (messages : List Message) : String :=
  "\n\n".intercalate ((messages.filter (·.role == .system)).map (·.content))

def spoken (messages : List Message) : List Message := messages.filter (·.role != .system)

/-- The model that the settings name. A hosted provider without a key is refused before anything
is sent, and an answer that is blank counts as none. -/
def ofSettings (t : Transport) (ai : AiSettings) : Model := fun messages =>
  match Provider.ofName? ai.provider with
  | none => .error (.unknownProvider ai.provider)
  | some p =>
    if p.needsKey && ai.apiKey.isEmpty then
      .error (.build ("Invalid request: No API key provided for " ++ p.title))
    else
      match t ai p (instructionsOf messages) (spoken messages) with
      | .error e => .error e
      | .ok none => .error .emptyReply
      | .ok (some text) =>
        if text.toList.all Text.isBlank then .error .emptyReply else .ok text

def pingText : String := "Are you running? Answer with one word."

def pingPrompt : List Message := [⟨.user, pingText⟩]

def isHealthy (m : Model) : Bool := (m pingPrompt).isOk

def offline : Transport := fun _ _ _ _ => .error (.chat "no network")

end Model
end ArchSketch
