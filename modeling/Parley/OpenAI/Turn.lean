import Parley.Conversation
import Parley.Tool.Basic
import Parley.Tool.JsonSchema

/-!
# Turns of chat completions

The entries of a chat-completions conversation. The system instruction is an entry like the others
and comes first; a tool result is an entry of its own. Next to tool calls the content is null
rather than empty, and a call without arguments has the empty object as its argument text.
-/

namespace Parley.OpenAI

structure Call where
  id : Value
  name : Value
  arguments : Value

inductive Turn where
  | system (text : Value)
  | user (text : Value)
  | assistant (text : Value)
  | calls (text : Value) (calls : List Call)
  | result (callId : String) (text : Value)

def Call.toValue (call : Call) : Value :=
  .dict [("id", call.id), ("type", .str "function"),
    ("function", .dict [("name", call.name), ("arguments", call.arguments)])]

def Turn.toValue : Turn → Value
  | .system text => .dict [("role", .str "system"), ("content", text)]
  | .user text => .dict [("role", .str "user"), ("content", text)]
  | .assistant text => .dict [("role", .str "assistant"), ("content", text)]
  | .calls text made =>
    .dict [("role", .str "assistant"), ("content", text),
      ("tool_calls", .list (made.map Call.toValue))]
  | .result callId text =>
    .dict [("role", .str "tool"), ("tool_call_id", .str callId), ("content", text)]

def Call.ofValue (call : Value) : Outcome Call := do
  let id ← call.attr "id"
  let name ← call.attr "function_name"
  return ⟨id, name, (← call.attr "arguments_json").orElse (.str "{}")⟩

/-- The entry of a message that is not a system message. -/
def Turn.ofMessage (m : Message) : Outcome Turn :=
  if m.hasRole "user" then return .user (m.content.orElse (.str ""))
  else if m.hasRole "assistant" then
    match m.turn with
    | .text content => return .assistant content
    | .calls made content => return .calls (content.orElse .null) (← made.mapM Call.ofValue)
  else return .result (← m.requireAnsweredId) (m.content.orElse (.str ""))

/-- The entries of a conversation: the system instruction first, if there is one. -/
def turns (ms : List Message) (system : Value) : Outcome (List Turn) := do
  let entries ← ms.mapM Turn.ofMessage
  return if system.truthy then .system system :: entries else entries

def declare (tool : ToolSchema) : Outcome Value := do
  return .dict [("type", .str "function"),
    ("function", .dict [("name", tool.name), ("description", tool.description),
      ("parameters", ← Tool.jsonSchema tool.parameters)])]

def declareAll (tools : List ToolSchema) : Outcome Value :=
  return .list (← tools.mapM declare)

end Parley.OpenAI
