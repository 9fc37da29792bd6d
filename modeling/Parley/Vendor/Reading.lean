import Parley.Anthropic.Reply
import Parley.Google.Reply
import Parley.OpenAI.Reply

/-!
# Reading what vendors send

The readers of all vendors under one name: a complete response becomes a message or a reply fault,
a stream event a chunk, nothing, or a skipped event.
-/

namespace Parley.Vendor

def readReply (vendor : Vendor) (response : Value) : Outcome Message :=
  Reply.checked vendor <|
    match vendor with
    | .openAI _ => OpenAI.replyOf vendor response
    | .anthropic => Anthropic.replyOf response
    | .google tag => Google.replyOf tag response

def readEvent (vendor : Vendor) (event : Value) : Outcome Reading :=
  Reading.ofOutcome <|
    match vendor with
    | .openAI _ => OpenAI.chunkOf event
    | .anthropic => Anthropic.chunkOf event
    | .google tag => Google.chunkOf tag event

end Parley.Vendor
