import Parley.Provider.Basic

/-!
# Streamed replies

A call that is answered event by event. Each event is read and its chunk, if it has one, handed to
the consumer; the stream is over after the chunk that completes the reply, when the consumer has
taken as many chunks as it wants, when the service has no more events, or when something fails.
However it ends, a stream that was opened is closed once.
-/

namespace Parley.Provider

def completes (chunk : Option Message) : Outcome Bool :=
  match chunk with
  | some m => m.isComplete
  | none => .ok false

/-- Hands out the chunks of events. The limit is the count of chunks the consumer still takes. -/
def handOut (p : Provider) (breakdown : Option VendorFailure) (limit : Option Nat) :
    List Value → Activity Unit
  | [] =>
    match limit, breakdown with
    | some 0, _ => pure ()
    | _, some failure => .fail (p.report failure)
    | _, none => pure ()
  | event :: rest =>
    if limit = some 0 then pure ()
    else do
      .perform (.received event)
      let reading ← .ofOutcome (p.vendor.readEvent event)
      .perform (.yielded reading.chunk?)
      if ← .ofOutcome (completes reading.chunk?) then pure ()
      else p.handOut breakdown (limit.map (· - 1)) rest

/-- Sends a payload and hands out the chunks of the reply. A consumer that takes none does not even
start the call; what the options are named is looked at before. -/
def stream (p : Provider) (service : Service) (model : Value) (payload : Payload)
    (given : Fields) (limit : Option Nat) : Activity Unit := do
  .ofOutcome (Options.requireFree Options.payloadCall given)
  if limit = some 0 then pure ()
  else
    p.send service true model payload given
    .perform .opened
    (p.handOut service.breakdown limit service.events).ending service.closer.actions

/-- Carries a conversation to the vendor, sends it and hands out the chunks of the reply. -/
def chatStream (p : Provider) (service : Service) (talk : Talk) (limit : Option Nat) :
    Activity Unit := do
  let talk ← .ofOutcome (talk.settle [])
  if limit = some 0 then pure ()
  else
    let payload ← .ofOutcome (p.adapt talk.messages talk.systemPrompt talk.tools)
    p.stream service talk.model payload talk.options limit

end Parley.Provider
