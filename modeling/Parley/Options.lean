import Parley.Settings.Basic

/-!
# Options of a request

The options a caller may give with a request. Temperature and token limit are always settled: an
option that is given stands, even a null one; else the settings decide, and without settings the
defaults. An option that is null or not given is not sent.

Options are given by name next to the parts of the call itself, so no option may have the name of a
part. The system prompt and the tools of a conversation may be given either way, but not both ways.
-/

namespace Parley.Options

/-- The options in force: those given, with temperature and token limit settled. -/
def resolve (settings : Option Settings) (given : Fields) : Fields :=
  let s := settings.getD .defaults
  (given.putIfAbsent "temperature" s.temperature).putIfAbsent "max_tokens" s.maxTokens

/-- The texts at which a model stops, as a list: a single text is a list of one. -/
def stopSequences (stop : Value) : Outcome Value :=
  match stop with
  | .null => .ok .null
  | .str _ => .ok (.list [stop])
  | v => return .list (← v.items)

/-! ## Names that are taken -/

/-- The names of the parts of a call that sends a payload, the one called included. -/
def payloadCall : List String := ["self", "model", "payload"]

/-- The names of the parts of a call that sends a conversation, the one called included. -/
def conversationCall : List String := ["self", "model", "messages"]

def requireFree (taken : List String) (given : Fields) : Outcome Unit :=
  if taken.any fun name => (given.lookup name).isSome then misuse .kind else .ok ()

/-- A part that may be given as an option instead, null if it is given neither way, and the options
that remain. -/
def extract (name : String) (direct : Option Value) (given : Fields) : Outcome (Value × Fields) :=
  match direct, given.lookup name with
  | some _, some _ => misuse .kind
  | some v, none => .ok (v, given)
  | none, some v => .ok (v, given.filter fun f => f.1 ≠ name)
  | none, none => .ok (.null, given)

end Parley.Options

namespace Parley

/-- A conversation to be sent, with what a caller says about sending it. -/
structure Talk where
  model : Value
  messages : Value
  systemPrompt : Option Value := none
  tools : Option Value := none
  options : Fields := []

/-- A conversation to be sent, each part found in its own place. -/
structure SettledTalk where
  model : Value
  messages : Value
  systemPrompt : Value
  tools : Value
  options : Fields

/-- Finds each part of a talk in its own place. Further names may be taken. -/
def Talk.settle (talk : Talk) (taken : List String) : Outcome SettledTalk := do
  Options.requireFree (Options.conversationCall ++ taken) talk.options
  let (systemPrompt, options) ← Options.extract "system_prompt" talk.systemPrompt talk.options
  let (tools, options) ← Options.extract "tools" talk.tools options
  return ⟨talk.model, talk.messages, systemPrompt, tools, options⟩

/-- The settled talk as one that gives every part in its own place. -/
def SettledTalk.toTalk (talk : SettledTalk) : Talk :=
  ⟨talk.model, talk.messages, some talk.systemPrompt, some talk.tools, talk.options⟩

end Parley
