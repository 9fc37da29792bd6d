import Parley.Reply

/-!
# Replies of chat completions

Readers of a chat-completions response and of its stream events. Only the first choice counts.
Fragments of streamed calls carry the index of their call, or else their place in the event.
-/

namespace Parley.OpenAI

def usageOf (raw : Value) : Outcome (Option TokenUsage) :=
  let usage := raw.read "usage"
  if usage.isNull then .ok none
  else
    TokenUsage.report (usage.read "prompt_tokens") (usage.read "completion_tokens")
      (usage.read "total_tokens")

/-- The text of a content: a list of parts gives the texts of its text parts. -/
def textOf (content : Value) : Outcome String :=
  match content with
  | .null => .ok ""
  | .list parts =>
    let texts := parts.filter fun part =>
      let type := part.read "type"
      type.isNull || type.isText "text"
    Value.joinTexts (texts.map fun part => part.field ["text"] (.str ""))
  | v => v.spelled

def callOf (vendor : Vendor) (raw : Value) : Outcome ToolCall :=
  let function := raw.read "function"
  let name := function.read "name"
  if name.truthy then
    .ok ⟨raw.field ["id"] (.str ""), name, function.field ["arguments"] (.str "")⟩
  else .error (.invalidReply (.unnamedCall vendor.label.plain))

def replyOf (vendor : Vendor) (response : Value) : Outcome Message :=
  let choices := response.read "choices"
  if !choices.truthy then .error (.invalidReply (.noChoices vendor.label.plain))
  else do
    let choice ← choices.item 0
    let message := choice.read "message"
    if message.isNull then .error (.invalidReply (.choiceWithoutMessage vendor.label.plain))
    else
      let calls ← (← (message.field ["tool_calls"] (.list [])).items).mapM (callOf vendor)
      let text ← textOf (message.read "content")
      let usage ← usageOf response
      return Reply.message text calls usage (response.read "model") (choice.read "finish_reason")

def fragmentOf (raw : Value) : ToolCall :=
  let function := raw.read "function"
  ⟨raw.field ["id"] (.str ""), function.field ["name"] (.str ""),
    function.field ["arguments"] (.str "")⟩

/-- The indices of the fragments of an event, from a position on. -/
def indicesFrom (position : Nat) : List Value → List Value
  | [] => []
  | raw :: rest => raw.field ["index"] (.int position) :: indicesFrom (position + 1) rest

def chunkOf (event : Value) : Outcome (Option Message) := do
  let usage ← usageOf event
  let choices := event.read "choices"
  if !choices.truthy then
    match usage with
    | some u =>
      return some (Reply.chunk .null [] none (some u) false [("model", event.read "model")])
    | none => return none
  else
    let choice ← choices.item 0
    let delta := choice.read "delta"
    let finishReason := choice.read "finish_reason"
    let complete := !finishReason.isNull
    let raws ← (delta.field ["tool_calls"] (.list [])).items
    let text ← textOf (delta.read "content")
    if text = "" && raws.isEmpty && !complete && usage.isNone then return none
    else
      let indices := if raws.isEmpty then none else some (indicesFrom 0 raws)
      return some (Reply.chunk (.str text) (raws.map fragmentOf) indices usage complete
        [("finish_reason", finishReason)])

end Parley.OpenAI
