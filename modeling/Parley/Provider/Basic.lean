import Parley.Provider.Activity
import Parley.Vendor.Reading
import Parley.Vendor.Request

/-!
# Providers

A provider serves calls to one vendor. It keeps no state between calls: it is the vendor, the
connection to its service, the settings and the request log. The service itself is seen through
what it does when it is called.
-/

namespace Parley

/-- What a provider reaches its vendor's service through: the connection is made from a key, or was
made elsewhere and handed in. -/
inductive Connection where
  | openAI (key address : Value)
  | anthropic (key : Value)
  | google (key : Value)
  | handedIn

structure Provider where
  vendor : Vendor
  connection : Option Connection := none
  settings : Option Settings := none
  log : Option RequestLog := none

/-- How an event stream can be closed. -/
inductive Closer where
  /-- By an asynchronous operation of its own. -/
  | asynchronous
  /-- By a plain operation. -/
  | plain
  /-- By a plain operation whose result has to be awaited. -/
  | awaited
  /-- Not at all. -/
  | absent
deriving DecidableEq, Repr

/-- What a vendor's service does when it is called: it refuses the request, or else answers with a
response, or with events after which the stream ends or breaks down. -/
structure Service where
  refusal : Option VendorFailure := none
  response : Value := .null
  latency : Double := .ofMagnitude false 0
  events : List Value := []
  breakdown : Option VendorFailure := none
  closer : Closer := .asynchronous

def Closer.actions : Closer → List Action
  | .absent => []
  | _ => [.closed]

namespace Provider

def name (p : Provider) : Value :=
  p.vendor.label

/-- The fault that a failure of the service amounts to: the failures of the provider's own vendor
are reported under its name, all others pass through. -/
def report (p : Provider) (failure : VendorFailure) : Fault :=
  if p.vendor.owns failure.kind then .vendorCall p.name failure else .foreign failure

def adapt (p : Provider) (messages systemPrompt tools : Value) : Outcome Payload :=
  Payload.adapt p.vendor messages systemPrompt tools

def requireConnection (p : Provider) : Outcome Unit :=
  match p.connection with
  | some _ => .ok ()
  | none => .error (.configuration (.noClient p.name.plain))

/-- Fails if the conversation or the tools of a payload cannot be counted. -/
def requireCountable (payload : Payload) : Outcome Unit := do
  let _ ← payload.messages.size
  let _ ← (payload.tools.orElse (.list [])).size

/-- The record of a request that the provider's log keeps. -/
def recordOf (p : Provider) (kind : String) (model : Value) (payload : Payload)
    (options : Fields) : Outcome (Option RequestRecord) :=
  match p.log with
  | some log => log.keep p.name (.str kind) model payload (.dict options)
  | none => .ok none

def record (p : Provider) (kind : String) (model : Value) (payload : Payload)
    (options : Fields) : Activity Unit := do
  match ← .ofOutcome (p.recordOf kind model payload options) with
  | some r => .perform (.recorded r)
  | none => pure ()

def send (p : Provider) (service : Service) (streaming : Bool) (model : Value)
    (payload : Payload) (given : Fields) : Activity Unit := do
  .ofOutcome p.requireConnection
  let options := Options.resolve p.settings given
  .ofOutcome (requireCountable payload)
  p.record (if streaming then "stream" else "chat") model payload options
  let request ← .ofOutcome (p.vendor.request streaming model payload options)
  .perform (.requested request)
  match service.refusal with
  | some failure => .fail (p.report failure)
  | none => pure ()

end Provider

end Parley
