import Parley.Message.Basic

/-!
# Creating messages

The usual ways in which a caller makes a message from named parts: a message that only has a text,
the result of a tool call, and an assistant message with tool calls.
-/

namespace Parley.Message

def createPlain (given : Fields) : Outcome Message := do
  checkAttributes ["role", "content"] [] given
  return { role := given.value "role", content := given.value "content" }

def createResult (given : Fields) : Outcome Message := do
  checkAttributes ["tool_call_id", "content"] ["name"] given
  return {
    role := .str "tool"
    content := given.value "content"
    toolCallId := given.value "tool_call_id"
    name := given.value "name" }

def createCalling (given : Fields) : Outcome Message := do
  checkAttributes ["content", "tool_calls"] [] given
  return {
    role := .str "assistant"
    content := given.value "content"
    toolCalls := ← (given.value "tool_calls").items }

end Parley.Message
