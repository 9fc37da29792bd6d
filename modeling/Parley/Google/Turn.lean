import Parley.Conversation
import Parley.Tool.Basic
import Parley.Tool.GeminiSchema

/-!
# Turns of content generation

The entries of a conversation with the content-generation service: users and the model exchange
lists of parts. A tool call is a part with decoded arguments; a tool result is a part addressed by
the function's name, and all results that follow one another share one user entry. A result that is
the text of a JSON object is sent as that object, any other is wrapped.
-/

namespace Parley.Google

structure FunctionCall where
  name : Value
  args : Fields

structure FunctionResponse where
  name : Value
  response : Fields

inductive Turn where
  | user (text : Value)
  | model (text : Value)
  | calls (text : Option Value) (calls : List FunctionCall)
  | responses (responses : List FunctionResponse)

def textPart (text : Value) : Value :=
  .dict [("text", text)]

def FunctionCall.toValue (call : FunctionCall) : Value :=
  .dict [("function_call", .dict [("name", call.name), ("args", .dict call.args)])]

def FunctionResponse.toValue (response : FunctionResponse) : Value :=
  .dict [("function_response",
    .dict [("name", response.name), ("response", .dict response.response)])]

namespace Turn

def role : Turn → String
  | .user _ => "user"
  | .responses _ => "user"
  | .model _ => "model"
  | .calls _ _ => "model"

def parts : Turn → List Value
  | .user text => [textPart text]
  | .model text => [textPart text]
  | .calls text made => (text.map textPart).toList ++ made.map FunctionCall.toValue
  | .responses rs => rs.map FunctionResponse.toValue

def toValue (turn : Turn) : Value :=
  .dict [("role", .str turn.role), ("parts", .list turn.parts)]

end Turn

/-! ## Conversion -/

def FunctionCall.ofValue (call : Value) : Outcome FunctionCall := do
  let id ← call.attr "id"
  let name ← call.attr "function_name"
  let arguments ← call.attr "arguments_json"
  return ⟨name, ← (ToolCall.mk id name arguments).argumentFields⟩

def responseFields (content : Value) : Outcome Fields :=
  if content.truthy then
    match content with
    | .str text =>
      match Json.read text with
      | .ok (.dict fields) => .ok fields
      | .error e => if e.isTooLong then misuse .content else .ok [("result", content)]
      | _ => .ok [("result", content)]
    | _ => misuse .kind
  else .ok [("result", .str "")]

/-- The function's name of the last of some calls that has the given id. -/
def nameAmong (id : Value) (found : Value) : List Value → Outcome Value
  | [] => .ok found
  | call :: rest => do
    if (← call.attr "id").same id then nameAmong id (← call.attr "function_name") rest
    else nameAmong id found rest

/-- The function's name of the last call with the given id in some messages. -/
def nameIn (id : Value) (found : Value) : List Message → Outcome Value
  | [] => .ok found
  | m :: rest => do nameIn id (← nameAmong id found m.toolCalls) rest

/-- The messages before the first place of a message, given those before one of its places. -/
def beforeFirst (before : List Message) (m : Message) : List Message :=
  before.takeWhile fun earlier => !earlier.isAt m

/-- The function that a tool message answers: its own name, or the name of the last call with its id
that comes before the first place of the message. -/
def answeredName (before : List Message) (m : Message) : Outcome Value := do
  let name ←
    if m.name.truthy then pure m.name
    else if m.toolCallId.truthy then nameIn m.toolCallId .null (beforeFirst before m)
    else pure .null
  if name.truthy then return name else invalid (.unnamedResult m.toolCallId)

/-- The entry of a message that is not a system message, given the messages before it. -/
def Turn.ofMessage (before : List Message) (m : Message) : Outcome Turn :=
  if m.hasRole "user" then return .user (m.content.orElse (.str ""))
  else if m.hasRole "assistant" then
    match m.turn with
    | .text content => return .model content
    | .calls made content =>
      return .calls (if content.truthy then some content else none)
        (← made.mapM FunctionCall.ofValue)
  else do
    let name ← answeredName before m
    return .responses [⟨name, ← responseFields m.content⟩]

/-- Adds an entry to those before it, the nearest first; results join results. -/
def push : List Turn → Turn → List Turn
  | .responses rs :: earlier, .responses ss => .responses (rs ++ ss) :: earlier
  | before, turn => turn :: before

/-- The entries of messages, added to those before, the nearest first; `seen` are the messages
before. -/
def turnsAfter (seen : List Message) (before : List Turn) : List Message → Outcome (List Turn)
  | [] => .ok before
  | m :: rest => do
    let turn ← Turn.ofMessage seen m
    turnsAfter (seen ++ [m]) (push before turn) rest

def turns (ms : List Message) : Outcome (List Turn) :=
  return (← turnsAfter [] [] ms).reverse

def declare (tool : ToolSchema) : Outcome Value := do
  return .dict [("name", tool.name), ("description", tool.description),
    ("parameters", ← Tool.geminiSchema tool.parameters)]

/-- The tools as the service takes them: one entry that holds all declarations. -/
def declareAll (tools : List ToolSchema) : Outcome Value := do
  Tool.declarations (.list (← tools.mapM declare))

end Parley.Google
