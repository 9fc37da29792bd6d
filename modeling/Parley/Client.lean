import Parley.Provider.Complete
import Parley.Provider.Stream
import Parley.Settings.Load

/-!
# Clients

A client is a registry of providers under names. A name counts in lower case, and two of the vendors
also go by the name of their model family. A client is built from providers handed in, or from
settings, in which case it has a provider for every vendor whose key is set.
-/

namespace Parley

/-- Providers under names, in the order in which the names were first registered. -/
structure Client where
  settings : Settings := .defaults
  providers : List (String × Provider) := []

namespace Client

def aliases : List (String × String) :=
  [("claude", "anthropic"), ("gemini", "google")]

/-- The name under which a provider is registered and looked up. -/
def canonicalName (name : Value) : Outcome String :=
  match name with
  | .str s =>
    let s := String.ofList (Text.lower s.toList)
    .ok ((aliases.lookup s).getD s)
  | v => v.callMissing "lower"

/-! ## The registry -/

/-- The entries with a provider under a name: in the old place if the name is taken, else at the
end. -/
def putProvider (name : String) (p : Provider) :
    List (String × Provider) → List (String × Provider)
  | [] => [(name, p)]
  | (n, q) :: rest => if n = name then (n, p) :: rest else (n, q) :: putProvider name p rest

/-- Adds a provider under a name, or replaces the one there. -/
def register (client : Client) (name : Value) (p : Provider) : Outcome Client := do
  let name ← canonicalName name
  return { client with providers := putProvider name p client.providers }

def order (client : Client) : List String :=
  client.providers.map Prod.fst

def available (client : Client) : List String :=
  client.order.mergeSort fun a b => decide (a ≤ b)

def provider (client : Client) (name : Value) : Outcome Provider := do
  match client.providers.lookup (← canonicalName name) with
  | some p => return p
  | none => .error (.unknownProvider name.plain)

/-! ## Building a client -/

def logOf (s : Settings) : Option RequestLog :=
  if s.logDirectory.truthy then some {} else none

/-- A provider under a name if the key it is connected with counts as something. -/
def withKey (s : Settings) (name : String) (vendor : Vendor) (key : Value)
    (connect : Value → Connection) : Option (String × Provider) :=
  if key.truthy then some (name, ⟨vendor, some (connect key), some s, logOf s⟩) else none

/-- The providers whose keys are set; `tag` marks the ids made up for calls without one. -/
def configured (tag : String) (s : Settings) : List (String × Provider) := [
  withKey s "openai" (.openAI (.str "openai")) s.openAIKey (.openAI · .null),
  withKey s "anthropic" .anthropic s.anthropicKey .anthropic,
  withKey s "google" (.google tag) s.googleKey .google,
  withKey s "deepseek" (.openAI (.str "deepseek")) s.deepSeekKey
    (.openAI · s.deepSeekAddress)].filterMap id

def ofSettings (tag : String) (s : Settings) : Client :=
  ⟨s, configured tag s⟩

/-- The client with the given providers, registered in order. -/
def ofProviders (s : Settings) (ps : List (Value × Provider)) : Outcome Client :=
  ps.foldlM (fun client e => client.register e.1 e.2) ⟨s, []⟩

/-- Builds a client. Providers that are given are all it has; else it has those of the settings,
which are loaded from the environment unless they are given. -/
def build (tag : String) (env : Environment) (settings : Option Settings)
    (providers : Option (List (Value × Provider))) : Outcome Client :=
  match providers, settings with
  | some ps, s => ofProviders (s.getD .defaults) ps
  | none, some s => .ok (ofSettings tag s)
  | none, none => return ofSettings tag (← Settings.load env)

/-- The connections that were made for the client's providers. -/
def connections (client : Client) : List Connection :=
  client.providers.filterMap fun e => e.2.connection

/-! ## Calls -/

/-- Carries a conversation to the vendor of a provider. -/
def adapt (client : Client) (name messages systemPrompt tools : Value) : Outcome Payload := do
  (← client.provider name).adapt messages systemPrompt tools

/-- The name that the parts of a client's call add to those of a provider's. -/
def taken : List String := ["provider"]

/-- Sends a payload through a provider and reads the reply. -/
def complete (client : Client) (service : Service) (name model : Value) (payload : Payload)
    (given : Fields) : Activity Message := do
  .ofOutcome (Options.requireFree (Options.payloadCall ++ taken) given)
  (← .ofOutcome (client.provider name)).complete service model payload given

/-- Sends a conversation through a provider and reads the reply. -/
def chat (client : Client) (service : Service) (name : Value) (talk : Talk) :
    Activity Message := do
  let talk ← .ofOutcome (talk.settle taken)
  (← .ofOutcome (client.provider name)).chat service talk.toTalk

/-- Sends a payload through a provider and hands out the chunks of the reply. -/
def stream (client : Client) (service : Service) (name model : Value) (payload : Payload)
    (given : Fields) (limit : Option Nat) : Activity Unit := do
  .ofOutcome (Options.requireFree (Options.payloadCall ++ taken) given)
  if limit = some 0 then pure ()
  else (← .ofOutcome (client.provider name)).stream service model payload given limit

/-- Sends a conversation through a provider and hands out the chunks of the reply. -/
def chatStream (client : Client) (service : Service) (name : Value) (talk : Talk)
    (limit : Option Nat) : Activity Unit := do
  let talk ← .ofOutcome (talk.settle taken)
  if limit = some 0 then pure ()
  else (← .ofOutcome (client.provider name)).chatStream service talk.toTalk limit

end Client

end Parley
