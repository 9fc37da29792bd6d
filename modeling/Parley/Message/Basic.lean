import Parley.Message.Usage

/-!
# Messages

The vendor-neutral message of a conversation. Its role is one of `user`, `assistant`, `system` and
`tool`; an assistant message may carry tool calls, and a tool message answers one of them by id.
Fields may hold any value, because messages come from callers and from vendors' replies; what a
conversation needs of them is checked where it is used.
-/

namespace Parley

/-- A message of a conversation. Two places of a conversation with one mark hold the same message;
a message without a mark stands at one place. -/
structure Message where
  role : Value
  content : Value := .null
  toolCalls : List Value := []
  toolCallId : Value := .null
  name : Value := .null
  usage : Value := .null
  metadata : Value := .dict []
  mark : Option Nat := none

namespace Message

def roles : List String := ["user", "assistant", "system", "tool"]

def hasRole (m : Message) (role : String) : Bool :=
  m.role.isText role

def isAt (m n : Message) : Bool :=
  m.mark.isSome && m.mark == n.mark

def kind (m : Message) : ObjectKind :=
  match m.mark with
  | none => .message
  | some mark => .shared mark

def toValue (m : Message) : Value :=
  .object m.kind [("role", m.role), ("content", m.content), ("tool_calls", .list m.toolCalls),
    ("tool_call_id", m.toolCallId), ("name", m.name), ("usage", m.usage),
    ("metadata", m.metadata)]

def ofFields (fields : Fields) : Message where
  role := fields.value "role"
  content := fields.value "content"
  toolCalls := match fields.lookup "tool_calls" with
    | some (.list calls) => calls
    | _ => []
  toolCallId := fields.value "tool_call_id"
  name := fields.value "name"
  usage := fields.value "usage"
  metadata := fields.value "metadata"

def ofObject? : Value → Option Message
  | .object .message fields => some (ofFields fields)
  | .object (.shared mark) fields => some { ofFields fields with mark := some mark }
  | _ => none

@[simp] theorem ofObject?_toValue (m : Message) : ofObject? m.toValue = some m := by
  obtain ⟨role, content, toolCalls, toolCallId, name, usage, metadata, mark⟩ := m
  cases mark <;> rfl

@[simp] theorem attr_content (m : Message) : m.toValue.attr "content" = .ok m.content := rfl

@[simp] theorem attr_metadata (m : Message) : m.toValue.attr "metadata" = .ok m.metadata := rfl

@[simp] theorem attr_toolCalls (m : Message) :
    m.toValue.attr "tool_calls" = .ok (.list m.toolCalls) := rfl

@[simp] theorem attr_usage (m : Message) : m.toValue.attr "usage" = .ok m.usage := rfl

def flag (m : Message) (key : String) : Outcome Bool :=
  return (← m.metadata.get key).truthy

def isComplete (m : Message) : Outcome Bool :=
  m.flag "is_complete"

/-- Whether a message is complete is asked of it like a field. -/
theorem attr_isComplete {m : Message} {fields : Fields} (h : m.metadata = .dict fields) :
    m.toValue.attr "is_complete" = m.isComplete.map Value.bool := by
  obtain ⟨role, content, toolCalls, toolCallId, name, usage, metadata, mark⟩ := m
  subst h
  cases mark <;> rfl

def build (given : Fields) : Outcome Message := do
  checkAttributes ["role"]
    ["content", "tool_calls", "tool_call_id", "name", "usage", "metadata", "timestamp"] given
  let calls ← (given.value "tool_calls" |>.orElse (.list [])).items
  return {
    role := given.value "role"
    content := given.value "content"
    toolCalls := calls
    toolCallId := given.value "tool_call_id"
    name := given.value "name"
    usage := given.value "usage"
    metadata := given.valueOr "metadata" (.dict []) }

/-! ## Messages in plain form -/

/-- The message that a value gives: a message object is itself; a dictionary holds its parts under
the library's own keys or, for the call list and the call id, their camel-case spellings. -/
def ofValue (raw : Value) : Outcome Message :=
  match ofObject? raw with
  | some m => .ok m
  | none =>
    match raw with
    | .dict _ => do
      let calls ← ((← raw.getEither "tool_calls" "toolCalls").orElse (.list [])).items
      let calls ← calls.mapM ToolCall.ofValue
      return {
        role := ← raw.get "role"
        content := ← raw.get "content"
        toolCalls := calls.map ToolCall.toValue
        toolCallId := ← raw.getEither "tool_call_id" "toolCallId"
        name := ← raw.get "name"
        metadata := .dict (← ((← raw.get "metadata").orElse (.dict [])).toFields) }
    | _ => invalid (.messageNotMapping raw.kindName)

/-- A message that is one already is taken as it is. -/
@[simp] theorem ofValue_toValue (m : Message) : ofValue m.toValue = .ok m := by
  simp [ofValue]

end Message

/-! ## Assistant turns -/

/-- What an assistant message says: text alone, or tool calls with or without text. -/
inductive AssistantTurn where
  | text (content : Value)
  | calls (calls : List Value) (content : Value)

def Message.turn (m : Message) : AssistantTurn :=
  if m.toolCalls.isEmpty then .text (m.content.orElse (.str ""))
  else .calls m.toolCalls m.content

end Parley
