import Parley.Request

/-!
# Requests of the messages service

The arguments of a messages request. The service insists on a token limit, so that one is sent
whatever it is.
-/

namespace Parley.Anthropic

/-- The choice among tools: one of three words, or the name of a tool. -/
def toolChoice (choice : Value) : Value :=
  if choice.isNull then .null
  else if choice.isText "auto" then .dict [("type", .str "auto")]
  else if choice.isText "none" then .dict [("type", .str "none")]
  else if choice.isText "required" then .dict [("type", .str "any")]
  else .dict [("type", .str "tool"), ("name", choice)]

def arguments (model : Value) (payload : Payload) (options : Fields) : Outcome Fields := do
  let stop ← Options.stopSequences (options.value "stop")
  return [("model", model), ("messages", payload.messages),
    ("max_tokens", options.value "max_tokens")] ++ Fields.present [
    ("system", payload.system),
    ("temperature", options.value "temperature"),
    ("top_p", options.value "top_p"),
    ("stop_sequences", stop),
    ("tools", payload.tools),
    ("tool_choice", Request.toolChoice payload options toolChoice)]

def request (streaming : Bool) (model : Value) (payload : Payload) (options : Fields) :
    Outcome Request := do
  return ⟨.createMessage, (← arguments model payload options) ++ Request.streamFlag streaming⟩

end Parley.Anthropic
