import Parley.Options
import Parley.Payload

/-!
# Requests

A request to a vendor's service: the operation that is called and the named arguments it is called
with. No argument that is null is sent, the model and the conversation apart.
-/

namespace Parley

/-- The operations of the vendors' services. -/
inductive Operation where
  | createCompletion
  | createMessage
  | generateContent
  | streamContent
deriving DecidableEq, Repr

def Operation.path : Operation → String
  | .createCompletion => "chat.completions.create"
  | .createMessage => "messages.create"
  | .generateContent => "models.generate_content"
  | .streamContent => "models.generate_content_stream"

structure Request where
  operation : Operation
  arguments : Fields

namespace Request

/-- The choice among tools in the form a vendor takes; without tools there is none. -/
def toolChoice (payload : Payload) (options : Fields) (form : Value → Value) : Value :=
  if payload.tools.truthy then form (options.value "tool_choice") else .null

def streamFlag (streaming : Bool) : Fields :=
  if streaming then [("stream", .bool true)] else []

end Request

end Parley
