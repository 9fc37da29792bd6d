import Parley.Request

/-!
# Requests of content generation

The arguments of a content-generation request: everything but the model and the conversation is part
of its configuration. Streams have an operation of their own.
-/

namespace Parley.Google

/-- A mode of calling functions, and the functions it is limited to. -/
def callingMode (mode : String) (allowed : Fields) : Value :=
  .dict [("function_calling_config", .dict (("mode", .str mode) :: allowed))]

/-- The choice among tools: one of three words, or the name of a function. -/
def toolChoice (choice : Value) : Value :=
  if choice.isNull then .null
  else if choice.isText "auto" then callingMode "AUTO" []
  else if choice.isText "none" then callingMode "NONE" []
  else if choice.isText "required" then callingMode "ANY" []
  else callingMode "ANY" [("allowed_function_names", .list [choice])]

def configuration (payload : Payload) (options : Fields) : Outcome Fields := do
  let stop ← Options.stopSequences (options.value "stop")
  return Fields.present [
    ("temperature", options.value "temperature"),
    ("max_output_tokens", options.value "max_tokens"),
    ("system_instruction", payload.system),
    ("top_p", options.value "top_p"),
    ("stop_sequences", stop),
    ("tools", payload.tools),
    ("tool_config", Request.toolChoice payload options toolChoice)]

def request (streaming : Bool) (model : Value) (payload : Payload) (options : Fields) :
    Outcome Request := do
  return ⟨if streaming then .streamContent else .generateContent,
    [("model", model), ("contents", payload.messages),
      ("config", .dict (← configuration payload options))]⟩

end Parley.Google
