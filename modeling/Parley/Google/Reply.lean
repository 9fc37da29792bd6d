import Parley.Reply

/-!
# Replies of content generation

Readers of a content-generation response and of its stream events, in the spelling of the client
library's objects or of the plain interchange form. Only the first candidate counts, and its
thoughts do not. A call without an id gets one made up from the tag of the reading and the number of
ids made so far in it.
-/

namespace Parley.Google

def usageOf (raw : Value) : Outcome (Option TokenUsage) :=
  let usage := raw.field ["usage_metadata", "usageMetadata"] .null
  if usage.isNull then .ok none
  else
    TokenUsage.report (usage.field ["prompt_token_count", "promptTokenCount"] .null)
      (usage.field ["candidates_token_count", "candidatesTokenCount"] .null)
      (usage.field ["total_token_count", "totalTokenCount"] .null)

def madeUpId (tag : String) (number : Nat) : String :=
  "call_" ++ tag ++ "_" ++ String.ofList (Number.digits number)

/-- The call of a function-call part, with the count of ids made up after it. -/
def callOf (tag : String) (made : Nat) (call : Value) : Outcome (ToolCall × Nat) :=
  let name := call.read "name"
  if !name.truthy then .error (.invalidReply .unnamedFunctionCall)
  else do
    let id := call.read "id"
    let args ← (call.field ["args"] (.dict [])).toFields
    let arguments ← Json.write (.dict args)
    if id.truthy then return (⟨id, name, .str arguments⟩, made)
    else return (⟨.str (madeUpId tag made), name, .str arguments⟩, made + 1)

/-- What the parts of a candidate give: the texts and the calls, in order. -/
def partsOf (tag : String) (made : Nat) : List Value → Outcome (List Value × List ToolCall)
  | [] => .ok ([], [])
  | part :: rest =>
    if (part.read "thought").truthy then partsOf tag made rest
    else
      let call := part.field ["function_call", "functionCall"] .null
      if !call.isNull then do
        let (call, made) ← callOf tag made call
        let (texts, calls) ← partsOf tag made rest
        return (texts, call :: calls)
      else do
        let text := part.read "text"
        let (texts, calls) ← partsOf tag made rest
        return (if text.truthy then text :: texts else texts, calls)

def candidateOf (tag : String) (candidate : Value) : Outcome (String × List ToolCall) := do
  let parts ← ((candidate.read "content").field ["parts"] (.list [])).items
  let (texts, calls) ← partsOf tag 0 parts
  return (← Value.joinTexts texts, calls)

/-- The finish reason of a candidate. The client library wraps it in an enumeration object. -/
def finishReasonOf (candidate : Value) : Value :=
  let reason := candidate.field ["finish_reason", "finishReason"] .null
  match reason with
  | .object _ fields => Fields.valueOr fields "value" reason
  | reason => reason

def modelOf (raw : Value) : Value :=
  raw.field ["model_version", "modelVersion"] .null

def replyOf (tag : String) (response : Value) : Outcome Message :=
  let candidates := response.read "candidates"
  if !candidates.truthy then .error (.invalidReply .noCandidates)
  else do
    let candidate ← candidates.item 0
    let (text, calls) ← candidateOf tag candidate
    let usage ← usageOf response
    return Reply.message text calls usage (modelOf response) (finishReasonOf candidate)

def chunkOf (tag : String) (event : Value) : Outcome (Option Message) := do
  let usage ← usageOf event
  let candidates := event.read "candidates"
  if !candidates.truthy then
    match usage with
    | some u => return some (Reply.chunk .null [] none (some u) false [])
    | none => return none
  else
    let candidate ← candidates.item 0
    let (text, calls) ← candidateOf tag candidate
    let finishReason := finishReasonOf candidate
    let complete := !finishReason.isNull
    if text = "" && calls.isEmpty && !complete && usage.isNone then return none
    else
      return some (Reply.chunk (.str text) calls none usage complete
        [("finish_reason", finishReason), ("model", modelOf event)])

end Parley.Google
