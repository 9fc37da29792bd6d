import Parley.Message.Basic
import Parley.Vendor.Basic

/-!
# Replies and chunks

What the readers of all vendors' replies share. A complete reply and a chunk of a streamed one are
assistant messages; a chunk says in its metadata that it is one, whether it ends the stream, and to
which call of the stream each of its call fragments belongs.

A reader takes arbitrary data. `Reply.checked` turns a part of the wrong kind into a reply fault,
and `Reading.ofOutcome` lets an event that cannot be read be skipped.
-/

namespace Parley

/-- The usage of a message, null if nothing was reported. -/
def usageValue : Option TokenUsage → Value
  | some usage => usage.toValue
  | none => .null

namespace Reply

/-- The content of a complete reply: null if it consists of calls alone, else its text. -/
def content (text : Value) (withCalls : Bool) : Value :=
  if !text.truthy && withCalls then .null else text.orElse (.str "")

def message (text : String) (calls : List ToolCall) (usage : Option TokenUsage)
    (model finishReason : Value) : Message where
  role := .str "assistant"
  content := content (.str text) (!calls.isEmpty)
  toolCalls := calls.map ToolCall.toValue
  usage := usageValue usage
  metadata := .dict [("model", model), ("finish_reason", finishReason)]

def chunkMetadata (complete : Bool) (indices : Option (List Value)) (extra : Fields) : Fields :=
  let base : Fields := [("is_stream_chunk", .bool true), ("is_complete", .bool complete)]
  let base := match indices with
    | some is => base ++ [("tool_call_indices", .list is)]
    | none => base
  base ++ extra.present

def chunk (content : Value) (calls : List ToolCall) (indices : Option (List Value))
    (usage : Option TokenUsage) (complete : Bool) (extra : Fields) : Message where
  role := .str "assistant"
  content := content
  toolCalls := calls.map ToolCall.toValue
  usage := usageValue usage
  metadata := .dict (chunkMetadata complete indices extra)

/-- Reports a part of the wrong kind as a fault of the vendor's reply. A number too large to be
added is no such part. -/
def checked {α : Type} (vendor : Vendor) (outcome : Outcome α) : Outcome α :=
  match outcome with
  | .error (.misuse .range) => misuse .range
  | .error (.misuse how) => .error (.invalidReply (.unexpectedShape vendor.label.plain how))
  | outcome => outcome

end Reply

/-- What reading a stream event gives. -/
inductive Reading where
  /-- A chunk to hand on. -/
  | chunk (m : Message)
  /-- An event that carries nothing worth handing on. -/
  | nothing
  /-- An event that cannot be read and is skipped. -/
  | malformed

namespace Reading

def chunk? : Reading → Option Message
  | .chunk m => some m
  | _ => none

/-- Whether the event was skipped because it could not be read. -/
def isMalformed : Reading → Bool
  | .malformed => true
  | _ => false

/-- What a reader's outcome means for the stream: an event with a part of the wrong kind is
skipped. -/
def ofOutcome (outcome : Outcome (Option Message)) : Outcome Reading :=
  match outcome with
  | .ok (some m) => .ok (.chunk m)
  | .ok none => .ok .nothing
  | .error (.invalidReply _) => .ok .malformed
  | .error (.misuse .range) => misuse .range
  | .error (.misuse _) => .ok .malformed
  | .error fault => .error fault

end Reading

end Parley
