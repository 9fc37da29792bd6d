import Parley.Request

/-!
# Requests of chat completions

The arguments of a chat-completions request. The system instruction is part of the conversation, and
the stop option is sent as it is given.
-/

namespace Parley.OpenAI

/-- The choice among tools: one of three words, or the name of a function. -/
def toolChoice (choice : Value) : Value :=
  if choice.isNull || ["auto", "none", "required"].any choice.isText then choice
  else .dict [("type", .str "function"), ("function", .dict [("name", choice)])]

def arguments (model : Value) (payload : Payload) (options : Fields) : Fields :=
  [("model", model), ("messages", payload.messages)] ++ Fields.present [
    ("temperature", options.value "temperature"),
    ("max_tokens", options.value "max_tokens"),
    ("top_p", options.value "top_p"),
    ("stop", options.value "stop"),
    ("tools", payload.tools),
    ("tool_choice", Request.toolChoice payload options toolChoice)]

def request (streaming : Bool) (model : Value) (payload : Payload) (options : Fields) : Request :=
  ⟨.createCompletion, arguments model payload options ++ Request.streamFlag streaming⟩

end Parley.OpenAI
