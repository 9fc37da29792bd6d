import Parley.Message.Call

/-!
# Settings

What the library can be configured with: the keys of the vendors, the defaults of a request, the log
level and the directory of the request log. Settings that are built by name may hold any value;
those loaded from the environment hold texts and numbers.
-/

namespace Parley

structure Settings where
  openAIKey : Value := .null
  anthropicKey : Value := .null
  googleKey : Value := .null
  deepSeekKey : Value := .null
  deepSeekAddress : Value := .str "https://api.deepseek.com"
  temperature : Value := .float (.ofScientific false 7 (-1))
  maxTokens : Value := .int 1024
  logLevel : Value := .str "WARNING"
  logDirectory : Value := .null

namespace Settings

def defaults : Settings := {}

def toFields (s : Settings) : Fields := [
  ("openai_api_key", s.openAIKey),
  ("anthropic_api_key", s.anthropicKey),
  ("google_api_key", s.googleKey),
  ("deepseek_api_key", s.deepSeekKey),
  ("deepseek_base_url", s.deepSeekAddress),
  ("temperature", s.temperature),
  ("max_tokens", s.maxTokens),
  ("log_level", s.logLevel),
  ("payload_log_dir", s.logDirectory)]

def names : List String :=
  defaults.toFields.map Prod.fst

/-- Builds settings from named values; a name that is not given has its default. -/
def build (given : Fields) : Outcome Settings := do
  checkAttributes [] names given
  return {
    openAIKey := given.valueOr "openai_api_key" defaults.openAIKey
    anthropicKey := given.valueOr "anthropic_api_key" defaults.anthropicKey
    googleKey := given.valueOr "google_api_key" defaults.googleKey
    deepSeekKey := given.valueOr "deepseek_api_key" defaults.deepSeekKey
    deepSeekAddress := given.valueOr "deepseek_base_url" defaults.deepSeekAddress
    temperature := given.valueOr "temperature" defaults.temperature
    maxTokens := given.valueOr "max_tokens" defaults.maxTokens
    logLevel := given.valueOr "log_level" defaults.logLevel
    logDirectory := given.valueOr "payload_log_dir" defaults.logDirectory }

@[simp] theorem build_toFields (s : Settings) : build s.toFields = .ok s := rfl

end Settings

end Parley
