import Parley.Reply

/-!
# Replies of the messages service

Readers of a response of the messages service and of its raw stream events. A reply is a list of
content blocks; a stream opens each block, sends its deltas and reports usage piecewise. Blocks and
events of other types carry nothing.
-/

namespace Parley.Anthropic

def usageOf (usage : Value) : Outcome (Option TokenUsage) :=
  if usage.isNull then .ok none
  else TokenUsage.report (usage.read "input_tokens") (usage.read "output_tokens") .null

/-- What the blocks of a reply give: the texts of the text blocks and the calls of the tool
blocks. -/
def blocksOf : List Value → Outcome (List Value × List ToolCall)
  | [] => .ok ([], [])
  | block :: rest =>
    let type := block.read "type"
    if type.isText "text" then do
      let (texts, calls) ← blocksOf rest
      return (block.field ["text"] (.str "") :: texts, calls)
    else if type.isText "tool_use" then do
      let id := block.read "id"
      let name := block.read "name"
      if id.truthy && name.truthy then
        let arguments ← Json.write (block.field ["input"] (.dict []))
        let (texts, calls) ← blocksOf rest
        return (texts, ⟨id, name, .str arguments⟩ :: calls)
      else .error (.invalidReply .unnamedBlock)
    else blocksOf rest

def replyOf (response : Value) : Outcome Message :=
  let blocks := response.read "content"
  if blocks.isNull then .error (.invalidReply .noContent)
  else do
    let (texts, calls) ← blocksOf (← blocks.items)
    let text ← Value.joinTexts texts
    let usage ← usageOf (response.read "usage")
    return Reply.message text calls usage (response.read "model") (response.read "stop_reason")

def startChunk (event : Value) : Outcome (Option Message) := do
  let message := event.read "message"
  match ← usageOf (message.read "usage") with
  | none => return none
  | some usage =>
    return some (Reply.chunk .null [] none (some usage) false [("model", message.read "model")])

def blockIndex (event : Value) : List Value :=
  [event.field ["index"] (.int 0)]

/-- The chunk of an event that opens a block. The arguments of a tool block arrive afterwards. -/
def blockChunk (event : Value) : Outcome (Option Message) :=
  let block := event.read "content_block"
  if !(block.read "type").isText "tool_use" then .ok none
  else
    let id := block.read "id"
    let name := block.read "name"
    if id.truthy && name.truthy then
      .ok (some (Reply.chunk (.str "") [⟨id, name, .str ""⟩] (some (blockIndex event))
        none false []))
    else .error (.invalidReply .unnamedBlockStart)

def deltaChunk (event : Value) : Outcome (Option Message) :=
  let delta := event.read "delta"
  let type := delta.read "type"
  if type.isText "text_delta" then
    let text := delta.read "text"
    if text.isNull then .error (.invalidReply .emptyTextDelta)
    else .ok (some (Reply.chunk text [] none none false []))
  else if type.isText "input_json_delta" then
    let fragment := delta.field ["partial_json"] (.str "")
    if fragment.truthy then
      .ok (some (Reply.chunk (.str "") [⟨.str "", .str "", fragment⟩] (some (blockIndex event))
        none false []))
    else .ok none
  else .ok none

/-- The chunk of an event that reports the stop reason and the final usage. -/
def finalChunk (event : Value) : Outcome (Option Message) := do
  let usage ← usageOf (event.read "usage")
  let stopReason := (event.read "delta").read "stop_reason"
  if usage.isNone && stopReason.isNull then return none
  else return some (Reply.chunk .null [] none usage false [("finish_reason", stopReason)])

def chunkOf (event : Value) : Outcome (Option Message) :=
  let type := event.read "type"
  if type.isText "message_start" then startChunk event
  else if type.isText "content_block_start" then blockChunk event
  else if type.isText "content_block_delta" then deltaChunk event
  else if type.isText "message_delta" then finalChunk event
  else if type.isText "message_stop" then
    .ok (some (Reply.chunk (.str "") [] none none true []))
  else .ok none

end Parley.Anthropic
