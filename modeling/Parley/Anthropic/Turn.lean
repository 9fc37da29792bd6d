import Parley.Conversation
import Parley.Tool.Basic
import Parley.Tool.JsonSchema

/-!
# Turns of the messages service

The entries of a conversation with the messages service, which knows users and assistants only. An
assistant's tool calls are content blocks with decoded arguments; tool results travel in a user
entry, and all results that follow one another share it. The system instruction is not an entry.
-/

namespace Parley.Anthropic

/-- A tool call of an assistant's entry. -/
structure ToolUse where
  id : Value
  name : Value
  input : Fields

structure ToolResult where
  callId : String
  content : Value

inductive Turn where
  | user (content : Value)
  | assistant (text : Value)
  | toolUses (text : Option Value) (uses : List ToolUse)
  | results (results : List ToolResult)

def ToolUse.toValue (use : ToolUse) : Value :=
  .dict [("type", .str "tool_use"), ("id", use.id), ("name", use.name), ("input", .dict use.input)]

def ToolResult.toValue (result : ToolResult) : Value :=
  .dict [("type", .str "tool_result"), ("tool_use_id", .str result.callId),
    ("content", result.content)]

def textBlock (text : Value) : Value :=
  .dict [("type", .str "text"), ("text", text)]

namespace Turn

def role : Turn → String
  | .user _ => "user"
  | .results _ => "user"
  | .assistant _ => "assistant"
  | .toolUses _ _ => "assistant"

def content : Turn → Value
  | .user content => content
  | .assistant text => text
  | .toolUses text uses => .list ((text.map textBlock).toList ++ uses.map ToolUse.toValue)
  | .results rs => .list (rs.map ToolResult.toValue)

def toValue (turn : Turn) : Value :=
  .dict [("role", .str turn.role), ("content", turn.content)]

end Turn

/-! ## Conversion -/

def ToolUse.ofValue (call : Value) : Outcome ToolUse := do
  let id ← call.attr "id"
  let name ← call.attr "function_name"
  let arguments ← call.attr "arguments_json"
  return ⟨id, name, ← (ToolCall.mk id name arguments).argumentFields⟩

/-- The entry of a message that is not a system message. -/
def Turn.ofMessage (m : Message) : Outcome Turn :=
  if m.hasRole "user" then return .user (m.content.orElse (.str ""))
  else if m.hasRole "assistant" then
    match m.turn with
    | .text content => return .assistant content
    | .calls made content =>
      return .toolUses (if content.truthy then some content else none)
        (← made.mapM ToolUse.ofValue)
  else return .results [⟨← m.requireAnsweredId, m.content.orElse (.str "")⟩]

/-- Whether all blocks of a content list are tool results, looked at from the front. A block has to
be a dictionary to tell. -/
def allResults : List Value → Outcome Bool
  | [] => .ok true
  | block :: rest => do
    if (← block.get "type").isText "tool_result" then allResults rest else return false

/-- The blocks of a user entry that holds tool results and nothing else. A caller may have written
such an entry as the content of a user message. -/
def Turn.resultBlocks? (turn : Turn) : Outcome (Option (List Value)) :=
  match turn with
  | .results rs => .ok (some (rs.map ToolResult.toValue))
  | .user (.list (block :: blocks)) => do
    if ← allResults (block :: blocks) then return some (block :: blocks) else return none
  | _ => .ok none

def Turn.join (earlier later : Turn) (before after : List Value) : Turn :=
  match earlier, later with
  | .results rs, .results ss => .results (rs ++ ss)
  | _, _ => .user (.list (before ++ after))

/-- Adds an entry to those before it, the nearest first; results join results. -/
def push (before : List Turn) (turn : Turn) : Outcome (List Turn) :=
  match before with
  | [] => .ok [turn]
  | last :: earlier => do
    match ← turn.resultBlocks? with
    | none => return turn :: before
    | some after =>
      match ← last.resultBlocks? with
      | none => return turn :: before
      | some blocks => return last.join turn blocks after :: earlier

/-- The entries of messages, added to those before, the nearest first. -/
def turnsAfter (before : List Turn) : List Message → Outcome (List Turn)
  | [] => .ok before
  | m :: rest => do
    let turn ← Turn.ofMessage m
    turnsAfter (← push before turn) rest

def turns (ms : List Message) : Outcome (List Turn) :=
  return (← turnsAfter [] ms).reverse

def declare (tool : ToolSchema) : Outcome Value := do
  return .dict [("name", tool.name), ("description", tool.description),
    ("input_schema", ← Tool.jsonSchema tool.parameters)]

def declareAll (tools : List ToolSchema) : Outcome Value :=
  return .list (← tools.mapM declare)

end Parley.Anthropic
