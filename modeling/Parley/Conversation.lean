import Parley.Message.Arguments

/-!
# Conversations

What a conversation has to satisfy before any vendor can be sent it: it holds at least one message,
every role is known, only assistant messages carry calls, and a tool message that names a call
names one made before. `Conversation.check` goes through the messages in order and reports the
first one that breaks a rule, the rules being checked in that order at each message.
-/

namespace Parley.Conversation

/-- The ids of a list of calls that later messages can name: those that are texts and not empty.
Every id that counts as something has to be usable as a key. -/
def callIds : List Value → Outcome (List String)
  | [] => .ok []
  | call :: rest => do
    let id ← call.attr "id"
    if id.truthy then
      if id.hashable then
        let ids ← callIds rest
        match id with
        | .str s => return s :: ids
        | _ => return ids
      else misuse .kind
    else callIds rest

/-- The id that a message answers; only tool messages answer one. -/
def answeredId (m : Message) : Outcome String :=
  if m.hasRole "tool" then m.answeredId else .ok ""

/-- Checks one message at a position, given the ids of the calls made before, and gives the ids
known after it. -/
def checkMessage (position : Nat) (known : List String) (m : Message) : Outcome (List String) :=
  if !Message.roles.any m.hasRole then invalid (.unknownRole m.role position)
  else if !m.toolCalls.isEmpty && !m.hasRole "assistant" then
    invalid (.callsOutsideAssistant m.role position)
  else do
    let known := known ++ (← callIds m.toolCalls)
    let id ← answeredId m
    if id ≠ "" ∧ id ∉ known then invalid (.unknownCall position id)
    else return known

def checkFrom (position : Nat) (known : List String) : List Message → Outcome Unit
  | [] => .ok ()
  | m :: rest => do
    let known ← checkMessage position known m
    checkFrom (position + 1) known rest

def check (ms : List Message) : Outcome Unit :=
  if ms.isEmpty then .error .noMessages else checkFrom 0 [] ms

def ofValue (raw : Value) : Outcome (List Message) :=
  if raw.isNull then .error .noMessages
  else do
    let ms ← (← raw.items).mapM Message.ofValue
    check ms
    return ms

/-! ## The system instruction -/

/-- The contents of the system messages, in order; an absent one is empty. -/
def systemParts (ms : List Message) : List Value :=
  (ms.filter (·.hasRole "system")).map fun m => m.content.orElse (.str "")

/-- The system instruction: the system messages of the conversation, a blank line between each
two, or without any the fallback. -/
def systemPrompt (ms : List Message) (fallback : Value) : Outcome Value :=
  match systemParts ms with
  | [] => .ok fallback
  | parts =>
    match parts.mapM Value.text? with
    | some texts => .ok (.str ("\n\n".intercalate texts))
    | none => misuse .kind

/-- The messages that are turns of the conversation proper. -/
def turns (ms : List Message) : List Message :=
  ms.filter fun m => !m.hasRole "system"

end Parley.Conversation
