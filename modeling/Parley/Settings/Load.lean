import Parley.Number.Literal
import Parley.Settings.Basic
import Parley.Settings.Reference
import Parley.Text.Case

/-!
# Loading settings

Settings from the environment, which a file may complete. A variable of the environment, even an
empty one, hides the file's. An empty text counts as not given, for a number a blank one too.
-/

namespace Parley

/-- The variables in force: those of the environment, and where it has none those of a file. -/
structure Environment where
  bindings : List (String × String) := []
  /-- The entries of the file, the last line first. -/
  entries : List EnvFile.Entry := []

namespace Environment

def value? (env : Environment) (name : String) : Option String :=
  match env.bindings.lookup name with
  | some text => some text
  | none => (env.entries.lookup name).join

/-! ## Completion by a file -/

/-- The variable by which an environment can refuse every file. -/
def refusal : String := "PYTHON_DOTENV_DISABLED"

/-- The values of that variable that say so, in capitals. -/
def refusing : List String := ["1", "TRUE", "T", "YES", "Y"]

def refusesFiles (env : Environment) : Bool :=
  match env.bindings.lookup refusal with
  | some text => refusing.contains (String.ofList (Text.upper text.toList))
  | none => false

/-- Whether a variable of that name and value cannot exist. -/
def isImpossible (name value : String) : Bool :=
  name.toList.contains '=' || name.toList.contains '\x00' || value.toList.contains '\x00'

/-- Whether an entry, the last of its name, is to become a variable that cannot exist. -/
def cannotTake (env : Environment) (entry : EnvFile.Entry) : Bool :=
  match entry with
  | (_, none) => false
  | (name, some text) =>
    isImpossible name text && (env.bindings.lookup name).isNone &&
      env.entries.lookup name == some (some text)

def withFile (env : Environment) (text : String) : Outcome Environment :=
  if env.refusesFiles then .ok env
  else
    let completed := { env with
      entries := EnvFile.resolved (fun name => env.bindings.lookup name) text }
    if completed.entries.any completed.cannotTake then misuse .content else .ok completed

/-- An environment that refuses files is not completed by any. -/
@[simp] theorem withFile_of_refusesFiles {env : Environment} (h : env.refusesFiles = true)
    (text : String) : env.withFile text = .ok env := by
  simp [withFile, h]

/-! ## Reading variables -/

def text? (env : Environment) (name : String) : Option String :=
  (env.value? name).filter (· ≠ "")

/-- The text of a variable as a value, null if there is none. -/
def textOrNull (env : Environment) (name : String) : Value :=
  match env.text? name with
  | some text => .str text
  | none => .null

/-- The number of a variable by a reader of numbers, the default if the text is blank or not
there. -/
def number (env : Environment) (name : String) (default : Value)
    (read : List Char → Option Value) (fault : String → SettingsFault) : Outcome Value :=
  match env.value? name with
  | none => .ok default
  | some text =>
    if Text.allBlank text.toList then .ok default
    else
      match read text.toList with
      | some v => .ok v
      | none => .error (.configuration (fault text))

end Environment

def Settings.load (env : Environment) : Outcome Settings := do
  let temperature ← env.number "LLMBRIDGE_TEMPERATURE" defaults.temperature
    (fun cs => (Number.readDouble? cs).map .float) (.notDecimal "LLMBRIDGE_TEMPERATURE")
  let maxTokens ← env.number "LLMBRIDGE_MAX_TOKENS" defaults.maxTokens
    (fun cs => (Number.readInt? cs).map .int) (.notInteger "LLMBRIDGE_MAX_TOKENS")
  let level := (env.text? "LLMBRIDGE_LOG_LEVEL").getD "WARNING"
  return {
    openAIKey := env.textOrNull "OPENAI_API_KEY"
    anthropicKey := env.textOrNull "ANTHROPIC_API_KEY"
    googleKey := env.textOrNull "GOOGLE_API_KEY"
    deepSeekKey := env.textOrNull "DEEPSEEK_API_KEY"
    deepSeekAddress := (env.textOrNull "DEEPSEEK_BASE_URL").orElse defaults.deepSeekAddress
    temperature := temperature
    maxTokens := maxTokens
    logLevel := .str (String.ofList (Text.upper level.toList))
    logDirectory := env.textOrNull "LLMBRIDGE_PAYLOAD_LOG_DIR" }

end Parley
