import Parley.Proofs.Payload
import Parley.Proofs.Provider.Requests

/-!
# The calls of a provider

A provider is called with a payload or with a conversation, for a reply or for a stream of chunks.
Whichever it is, the call makes a payload ready, sends it, and then reads what comes back. This file
brings the four kinds of call to that one form, so that what holds of all calls is shown once.

* `Payload.Listed`: payloads as they are meant to be, which conversations make;
* `Call`, `Call.run`: the kinds of call;
* `Call.ready`: what a call has ready before anything is done for it;
* `run_of_ready`, `run_of_unready`, `run_of_unwanted`: a call as sending and following;
* `exists_ready_of_mem_requests`: every request is made of what the call has ready.
-/

namespace Parley

namespace Activity

variable {α β γ : Type}

theorem pure_andThen (x : α) (next : α → Activity β) : pure x >>= next = next x := by
  rw [bind_of_ok rfl]
  rfl

/-- What happens in three steps happens in the same order however the steps are grouped. -/
theorem andThen_assoc (first : Activity α) (second : α → Activity β) (third : β → Activity γ) :
    first >>= second >>= third = first >>= fun x => second x >>= third := by
  rcases hfirst : first.outcome with fault | x
  · rw [bind_of_error hfirst, bind_of_error hfirst, bind_of_error rfl]
  rw [bind_of_ok hfirst, bind_of_ok hfirst]
  rcases hsecond : (second x).outcome with fault | y
  · rw [bind_of_error rfl, bind_of_error hsecond]
  · rw [bind_of_ok rfl, bind_of_ok hsecond, List.append_assoc]

theorem andThen_pure (run : Activity α) : run >>= pure = run := by
  rcases run with ⟨actions, fault | x⟩
  · exact bind_of_error rfl _
  · rw [bind_of_ok rfl]
    simp

instance : LawfulMonad Activity :=
  LawfulMonad.mk' _ andThen_pure pure_andThen andThen_assoc

end Activity

/-! ## Payloads that can be counted -/

/-- A payload as it is meant to be: a list of turns, and a list of tools or none. -/
structure Payload.Listed (payload : Payload) : Prop where
  turns : ∃ turns, payload.messages = .list turns
  tools : payload.tools = .null ∨ ∃ tools, payload.tools = .list tools

/-- What is declared of tools is a list. -/
theorem Payload.exists_list_of_declareAll {vendor : Vendor} {tools : List ToolSchema}
    {declared : Value} (h : declareAll vendor tools = .ok declared) :
    ∃ entries, declared = .list entries := by
  cases vendor with
  | openAI label =>
    rcases Outcome.of_bind_eq_ok h with ⟨entries, -, ⟨⟩⟩
    exact ⟨_, rfl⟩
  | anthropic =>
    rcases Outcome.of_bind_eq_ok h with ⟨entries, -, ⟨⟩⟩
    exact ⟨_, rfl⟩
  | google tag =>
    rcases Outcome.of_bind_eq_ok h with ⟨entries, -, hall⟩
    rcases Outcome.of_bind_eq_ok hall with ⟨items, -, ⟨⟩⟩
    exact ⟨_, rfl⟩

/-- A conversation that can be carried to a vendor makes a payload as it is meant to be. -/
theorem Payload.listed_of_adapt {vendor : Vendor} {messages systemPrompt tools : Value}
    {payload : Payload} (h : adapt vendor messages systemPrompt tools = .ok payload) :
    payload.Listed := by
  rcases Outcome.of_bind_eq_ok h with ⟨ms, -, hmade⟩
  rcases ofMessages_eq_ok_iff.1 hmade with ⟨system, entries, declared, -, -, -, hdeclared, rfl⟩
  refine ⟨⟨entries, rfl⟩, ?_⟩
  rw [toolsOf] at hdeclared
  split at hdeclared
  · rcases Outcome.of_bind_eq_ok hdeclared with ⟨items, -, hitems⟩
    rcases Outcome.of_bind_eq_ok hitems with ⟨schemas, -, hall⟩
    exact .inr (exists_list_of_declareAll hall)
  · cases hdeclared
    exact .inl rfl

namespace Provider

theorem requireCountable_of_listed {payload : Payload} (h : payload.Listed) :
    requireCountable payload = .ok () := by
  rcases h.turns with ⟨turns, hturns⟩
  rw [requireCountable, hturns]
  rcases h.tools with htools | ⟨tools, htools⟩
  · rw [htools]
    rfl
  · rw [htools, Value.size, Value.size, Value.items_orElse_list]
    rfl

/-- What is sent by a call: a payload for a model, and the options given with it. -/
structure Dispatch where
  model : Value
  payload : Payload
  options : Fields

/-- A call of a provider. Of a stream as many chunks are taken as the limit says, or all. -/
inductive Call where
  | complete (dispatch : Dispatch)
  | chat (talk : Talk)
  | stream (dispatch : Dispatch) (limit : Option Nat)
  | chatStream (talk : Talk) (limit : Option Nat)

namespace Call

/-- What the provider does when it is called. Of a call for a reply comes the reply. -/
def run (p : Provider) (service : Service) : Call → Activity (Option Message)
  | .complete d => do return some (← p.complete service d.model d.payload d.options)
  | .chat talk => do return some (← p.chat service talk)
  | .stream d limit => do
    p.stream service d.model d.payload d.options limit
    return none
  | .chatStream talk limit => do
    p.chatStream service talk limit
    return none

def isStreaming : Call → Bool
  | .complete _ => false
  | .chat _ => false
  | .stream _ _ => true
  | .chatStream _ _ => true

/-- Whether anything is asked for. A stream of which no chunk is taken is not even started. -/
def isWanted : Call → Bool
  | .complete _ => true
  | .chat _ => true
  | .stream _ limit => limit != some 0
  | .chatStream _ limit => limit != some 0

/-- Whether the call can be made: no option has the name of a part of it. -/
def bound : Call → Outcome Unit
  | .complete d => Options.requireFree Options.payloadCall d.options
  | .chat talk => (talk.settle []).map fun _ => ()
  | .stream d _ => Options.requireFree Options.payloadCall d.options
  | .chatStream talk _ => (talk.settle []).map fun _ => ()

/-- Whether a payload that is given is as it is meant to be. -/
def Listed : Call → Prop
  | .complete d => d.payload.Listed
  | .chat _ => True
  | .stream d _ => d.payload.Listed
  | .chatStream _ _ => True

def readyOf (d : Dispatch) : Outcome Dispatch := do
  Options.requireFree Options.payloadCall d.options
  return d

/-- What is to be sent for a conversation: it is carried to the vendor first. -/
def readyOfTalk (p : Provider) (talk : Talk) : Outcome Dispatch := do
  let talk ← talk.settle []
  let payload ← p.adapt talk.messages talk.systemPrompt talk.tools
  readyOf ⟨talk.model, payload, talk.options⟩

def ready (p : Provider) : Call → Outcome Dispatch
  | .complete d => readyOf d
  | .chat talk => readyOfTalk p talk
  | .stream d _ => readyOf d
  | .chatStream talk _ => readyOfTalk p talk

def follow (p : Provider) (service : Service) : Call → Activity (Option Message)
  | .complete _ => reply
  | .chat _ => reply
  | .stream _ limit => chunks limit
  | .chatStream _ limit => chunks limit
where
  /-- The reply is read. -/
  reply : Activity (Option Message) := do
    let m ← .ofOutcome (p.vendor.readReply service.response)
    return some (m.annotate [("provider", p.name), ("latency_ms", .float service.latency)])
  /-- The chunks are handed out. -/
  chunks (limit : Option Nat) : Activity (Option Message) := do
    .perform .opened
    (p.handOut service.breakdown limit service.events).ending service.closer.actions
    return none

variable {p : Provider} {service : Service} {call : Call} {d : Dispatch} {fault : Fault}

/-! ## One form for all calls -/

/-- Two steps that do nothing but compute can be taken one at a time. -/
theorem ofOutcome_bind_assoc {α β γ : Type} (outcome : Outcome α) (step : α → Outcome β)
    (next : β → Activity γ) :
    (Activity.ofOutcome (outcome >>= step) >>= next) =
      Activity.ofOutcome outcome >>= fun x => Activity.ofOutcome (step x) >>= next := by
  cases outcome <;> rfl

/-- A call that asks for something makes ready what it sends, sends it, and reads what comes. -/
theorem run_of_wanted (hwanted : call.isWanted = true) :
    call.run p service = (do
      let d ← .ofOutcome (call.ready p)
      p.send service call.isStreaming d.model d.payload d.options
      call.follow p service) := by
  cases call with
  | complete d =>
    simp only [run, Provider.complete, ready, readyOf, ofOutcome_bind_assoc, bind_assoc]
    rfl
  | chat talk =>
    simp only [run, Provider.chat, Provider.complete, ready, readyOfTalk, readyOf,
      ofOutcome_bind_assoc, bind_assoc]
    rfl
  | stream d limit =>
    have hlimit : limit ≠ some 0 := by simpa [isWanted] using hwanted
    simp only [run, Provider.stream, ready, readyOf, ofOutcome_bind_assoc, bind_assoc,
      if_neg hlimit]
    rfl
  | chatStream talk limit =>
    have hlimit : limit ≠ some 0 := by simpa [isWanted] using hwanted
    simp only [run, Provider.chatStream, Provider.stream, ready, readyOfTalk, readyOf,
      ofOutcome_bind_assoc, bind_assoc, if_neg hlimit]
    rfl

/-- A call that is wanted and ready sends, and then does what follows. -/
theorem run_of_ready (hwanted : call.isWanted = true) (hready : call.ready p = .ok d) :
    call.run p service = (do
      p.send service call.isStreaming d.model d.payload d.options
      call.follow p service) := by
  rw [run_of_wanted hwanted, Activity.ofOutcome_bind_of_ok hready]

/-- A call that cannot be made ready fails without doing anything. -/
theorem run_of_unready (hwanted : call.isWanted = true) (hready : call.ready p = .error fault) :
    call.run p service = ⟨[], .error fault⟩ := by
  rw [run_of_wanted hwanted, Activity.ofOutcome_bind_of_error hready]

/-- Nothing is done for a call that asks for nothing. -/
theorem run_of_unwanted (h : call.isWanted = false) :
    call.run p service = ⟨[], call.bound.map fun _ => none⟩ := by
  cases call with
  | complete d => cases h
  | chat talk => cases h
  | stream d limit =>
    have hlimit : limit = some 0 := by simpa [isWanted] using h
    simp only [run, Provider.stream, bound, if_pos hlimit]
    cases Options.requireFree Options.payloadCall d.options <;> rfl
  | chatStream talk limit =>
    have hlimit : limit = some 0 := by simpa [isWanted] using h
    simp only [run, Provider.chatStream, bound, if_pos hlimit]
    cases talk.settle [] <;> rfl

/-! ## What is ready -/

theorem eq_of_readyOf {e : Dispatch} (h : readyOf e = .ok d) : e = d := by
  rcases Outcome.of_bind_eq_ok h with ⟨-, -, ⟨⟩⟩
  rfl

/-- What a chat is made ready to send is lists. -/
theorem listed_of_readyOfTalk {talk : Talk} (h : readyOfTalk p talk = .ok d) :
    d.payload.Listed := by
  rcases Outcome.of_bind_eq_ok h with ⟨settled, -, hsettled⟩
  rcases Outcome.of_bind_eq_ok hsettled with ⟨payload, hpayload, hready⟩
  cases eq_of_readyOf hready
  exact Payload.listed_of_adapt hpayload

theorem listed_of_ready (hlisted : call.Listed) (h : call.ready p = .ok d) : d.payload.Listed := by
  cases call with
  | complete e => exact eq_of_readyOf h ▸ hlisted
  | chat talk => exact listed_of_readyOfTalk h
  | stream e limit => exact eq_of_readyOf h ▸ hlisted
  | chatStream talk limit => exact listed_of_readyOfTalk h

/-! ## Requests -/

/-- Reading what comes back asks for nothing. -/
theorem requests_follow (call : Call) (p : Provider) (service : Service) :
    (call.follow p service).requests = [] := by
  have hreply : (follow.reply p service).requests = [] :=
    Activity.requests_bind_of_silent fun _ => rfl
  have hchunks (limit : Option Nat) : (follow.chunks p service limit).requests = [] := by
    rw [follow.chunks, Activity.perform_bind, Activity.requests, List.filterMap_cons_none rfl]
    exact (Activity.requests_bind_of_silent fun _ => rfl).trans (requests_handOut p service limit)
  cases call with
  | complete d => exact hreply
  | chat talk => exact hreply
  | stream d limit => exact hchunks limit
  | chatStream talk limit => exact hchunks limit

/-- Every request that a call sends is made of what it has ready. -/
theorem exists_ready_of_mem_requests {request : Request}
    (h : request ∈ (call.run p service).requests) :
    ∃ d, call.ready p = .ok d ∧ p.vendor.request call.isStreaming d.model d.payload
      (Options.resolve p.settings d.options) = .ok request := by
  cases hwanted : call.isWanted with
  | false =>
    rw [run_of_unwanted hwanted] at h
    cases h
  | true =>
    rcases hready : call.ready p with fault | d
    · rw [run_of_unready hwanted hready] at h
      cases h
    rw [run_of_ready hwanted hready,
      Activity.requests_bind_of_silent fun _ => requests_follow call p service] at h
    by_cases hcan : p.CanSend call.isStreaming d.model d.payload d.options
    · rcases hcan.request with ⟨made, hmade⟩
      rw [requests_send_of_canSend hcan hmade, List.mem_singleton] at h
      exact ⟨d, rfl, h ▸ hmade⟩
    · rw [requests_send_of_not_canSend hcan] at h
      cases h

end Call

end Provider

end Parley
