import Parley.Anthropic.Turn
import Parley.Google.Turn
import Parley.OpenAI.Turn
import Parley.Vendor.Basic

/-!
# Payloads

A conversation in the form in which one vendor takes it: the entries, the system instruction and
the tools. The payload is a function of the conversation alone, and nothing is sent.
-/

namespace Parley

structure Payload where
  vendor : Value
  messages : Value
  system : Value := .null
  tools : Value := .null

namespace Payload

def build (given : Fields) : Outcome Payload := do
  checkAttributes ["provider", "messages"] ["system", "tools"] given
  return ⟨given.value "provider", given.value "messages",
    given.value "system", given.value "tools"⟩

def entries (vendor : Vendor) (ms : List Message) (system : Value) : Outcome (List Value) :=
  match vendor with
  | .openAI _ => return (← OpenAI.turns ms system).map OpenAI.Turn.toValue
  | .anthropic => return (← Anthropic.turns ms).map Anthropic.Turn.toValue
  | .google _ => return (← Google.turns ms).map Google.Turn.toValue

def declareAll (vendor : Vendor) (tools : List ToolSchema) : Outcome Value :=
  match vendor with
  | .openAI _ => OpenAI.declareAll tools
  | .anthropic => Anthropic.declareAll tools
  | .google _ => Google.declareAll tools

/-- The tools that a value gives, in the form a vendor takes; null if it gives none. -/
def toolsOf (vendor : Vendor) (tools : Value) : Outcome Value :=
  if tools.truthy then do
    declareAll vendor (← (← tools.items).mapM ToolSchema.ofValue)
  else .ok .null

def ofMessages (vendor : Vendor) (ms : List Message) (systemPrompt tools : Value) :
    Outcome Payload := do
  let system ← Conversation.systemPrompt ms systemPrompt
  let turns := Conversation.turns ms
  if turns.isEmpty then .error .onlySystemMessages
  else
    let entries ← entries vendor turns system
    let tools ← toolsOf vendor tools
    return ⟨vendor.label, .list entries, system, tools⟩

/-- Carries a conversation to a vendor. The system prompt is used if the conversation holds no
system message. -/
def adapt (vendor : Vendor) (messages systemPrompt tools : Value) : Outcome Payload := do
  ofMessages vendor (← Conversation.ofValue messages) systemPrompt tools

end Payload

end Parley
