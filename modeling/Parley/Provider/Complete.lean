import Parley.Provider.Basic

/-!
# Complete replies

A call that is answered as a whole. The reply says in its metadata who served it and how long that
took.
-/

namespace Parley

def Message.annotate (m : Message) (entries : Fields) : Message :=
  match m.metadata with
  | .dict fields =>
    { m with metadata := .dict (entries.foldl (fun fs e => Fields.put fs e.1 e.2) fields) }
  | _ => m

namespace Provider

def complete (p : Provider) (service : Service) (model : Value) (payload : Payload)
    (given : Fields) : Activity Message := do
  .ofOutcome (Options.requireFree Options.payloadCall given)
  p.send service false model payload given
  let m ← .ofOutcome (p.vendor.readReply service.response)
  return m.annotate [("provider", p.name), ("latency_ms", .float service.latency)]

/-- Carries a conversation to the vendor, sends it and reads the reply. -/
def chat (p : Provider) (service : Service) (talk : Talk) : Activity Message := do
  let talk ← .ofOutcome (talk.settle [])
  let payload ← .ofOutcome (p.adapt talk.messages talk.systemPrompt talk.tools)
  p.complete service talk.model payload talk.options

end Provider

end Parley
