import Parley.Message.Basic
import Parley.Text.Blank

/-!
# Arguments and answers

What ties tool calls and tool messages together: the argument object of a call and the id of the
call that a tool message answers. Blank arguments stand for the empty object; anything else has to
be the text of a JSON object. An integer with too many digits in it is a fault of the number, not of
the message. Blanks around an answered id do not count.
-/

namespace Parley

namespace Value

def stripped (v : Value) : Outcome String :=
  match v with
  | .str s => .ok (String.ofList (Text.strip s.toList))
  | v => v.callMissing "strip"

end Value

/-- The argument object that a text writes; `label` names the call in messages. -/
def decodeArguments (label : Value) (text : String) : Outcome Fields :=
  if Text.strip text.toList = [] then .ok []
  else
    match Json.read text with
    | .error e => if e.isTooLong then misuse .content else invalid (.argumentSyntax label e)
    | .ok (.dict fields) => .ok fields
    | .ok _ => invalid (.argumentsNotObject label)

def ToolCall.argumentFields (call : ToolCall) : Outcome Fields :=
  match call.arguments with
  | .null => .ok []
  | .str text => decodeArguments (call.id.orElse call.name) text
  | v => v.callMissing "strip"

namespace Message

/-- The id of the call that a tool message answers, without surrounding blanks. -/
def answeredId (m : Message) : Outcome String :=
  (m.toolCallId.orElse (.str "")).stripped

/-- The id of the call that a tool message answers; it may not be blank. -/
def requireAnsweredId (m : Message) : Outcome String := do
  let id ← m.answeredId
  if id = "" then invalid .missingCallId else return id

end Message

end Parley
