import Parley.Proofs.Outcome
import Parley.Provider.Stream

/-!
# The life of an event stream

A stream ends when a chunk completes the reply, when the consumer has enough, when the service has
no more events, or when something fails. This file says for every service and every consumer which
events are read and which chunks are handed out by then, what comes of the call, and that a stream
that was opened is closed once, and no other.

* `send_of_unconnected`, `send_of_recorded` and what stands between: the steps up to a request;
* `send_cases`: a request is sent, or something fails before that;
* `Ending`: the ways in which reading a stream ends;
* `handOut_run`: the events that are read, and how it ends;
* `stream_lifecycle`: the whole of a streamed call.
-/

namespace Parley

/-! ## What can be seen of a run -/

namespace Action

def isRequested : Action → Bool
  | .requested _ => true
  | _ => false

def isOpened : Action → Bool
  | .opened => true
  | _ => false

def isClosed : Action → Bool
  | .closed => true
  | _ => false

def event? : Action → Option Value
  | .received event => some event
  | _ => none

def chunk? : Action → Option (Option Message)
  | .yielded chunk => some chunk
  | _ => none

end Action

namespace Activity

variable {α β : Type}

/-- A computation that succeeds hands on what it gives. -/
theorem ofOutcome_bind_of_ok {outcome : Outcome α} {x : α} (h : outcome = .ok x)
    (next : α → Activity β) : ofOutcome outcome >>= next = next x := by
  rw [h]
  rfl

/-- A computation that fails ends the call. -/
theorem ofOutcome_bind_of_error {outcome : Outcome α} {fault : Fault} (h : outcome = .error fault)
    (next : α → Activity β) : ofOutcome outcome >>= next = ⟨[], .error fault⟩ := by
  rw [h]
  rfl

/-- An action comes before what follows it. -/
theorem perform_bind (action : Action) (next : Unit → Activity β) :
    perform action >>= next = ⟨action :: (next ()).actions, (next ()).outcome⟩ := rfl

def noting (records : List RequestRecord) (run : Activity α) : Activity α :=
  ⟨records.map .recorded ++ run.actions, run.outcome⟩

@[simp] theorem noting_nil (run : Activity α) : noting [] run = run := rfl

/-- Records that are noted come first, whatever follows. -/
theorem noting_bind (records : List RequestRecord) (first : Activity α) (next : α → Activity β) :
    noting records first >>= next = noting records (first >>= next) := by
  have hnoting : (noting records first).outcome = first.outcome := rfl
  rcases hfirst : first.outcome with fault | x
  · rw [bind_of_error (hnoting.trans hfirst), bind_of_error hfirst]
    rfl
  · rw [bind_of_ok (hnoting.trans hfirst), bind_of_ok hfirst]
    simp [noting]

def asks (run : Activity α) : Bool :=
  run.actions.any Action.isRequested

def opens (run : Activity α) : Bool :=
  run.actions.any Action.isOpened

def events (run : Activity α) : List Value :=
  run.actions.filterMap Action.event?

def chunks (run : Activity α) : List (Option Message) :=
  run.actions.filterMap Action.chunk?

def closings (run : Activity α) : Nat :=
  run.actions.countP Action.isClosed

end Activity

namespace Provider

variable {p : Provider} {service : Service} {model : Value} {payload : Payload} {given : Fields}

/-! ## Sending a request -/

/-- A request can be sent: the provider is connected, and the request can be written and
recorded. -/
structure CanSend (p : Provider) (streaming : Bool) (model : Value) (payload : Payload)
    (given : Fields) : Prop where
  connected : p.connection.isSome = true
  countable : requireCountable payload = .ok ()
  recorded : ∃ record, p.recordOf (if streaming then "stream" else "chat") model payload
    (Options.resolve p.settings given) = .ok record
  request : ∃ request, p.vendor.request streaming model payload
    (Options.resolve p.settings given) = .ok request

def ask (p : Provider) (service : Service) (streaming : Bool) (model : Value) (payload : Payload)
    (given : Fields) : Activity Unit := do
  let request ← .ofOutcome
    (p.vendor.request streaming model payload (Options.resolve p.settings given))
  .perform (.requested request)
  match service.refusal with
  | some failure => .fail (p.report failure)
  | none => pure ()

def answer (p : Provider) (service : Service) : Outcome Unit :=
  match service.refusal with
  | some failure => .error (p.report failure)
  | none => .ok ()

theorem record_of_ok {kind : String} {options : Fields} {record : Option RequestRecord}
    (h : p.recordOf kind model payload options = .ok record) :
    p.record kind model payload options = ⟨record.toList.map .recorded, .ok ()⟩ := by
  rw [Provider.record, Activity.ofOutcome_bind_of_ok h]
  cases record <;> rfl

/-- What cannot be recorded ends the call. -/
theorem record_of_error {kind : String} {options : Fields} {fault : Fault}
    (h : p.recordOf kind model payload options = .error fault) :
    p.record kind model payload options = ⟨[], .error fault⟩ := by
  rw [Provider.record, Activity.ofOutcome_bind_of_error h]

theorem requireConnection_of_isSome (h : p.connection.isSome = true) :
    p.requireConnection = .ok () := by
  rcases Option.isSome_iff_exists.1 h with ⟨connection, hconnection⟩
  rw [requireConnection, hconnection]

/-- Without a connection nothing is sent or recorded. -/
theorem send_of_unconnected {streaming : Bool} (h : p.connection = none) :
    p.send service streaming model payload given =
      ⟨[], .error (.configuration (.noClient p.name.plain))⟩ := by
  have hrequire : p.requireConnection = .error (.configuration (.noClient p.name.plain)) := by
    rw [requireConnection, h]
  rw [send, Activity.ofOutcome_bind_of_error hrequire]

/-- What cannot be counted is not sent. -/
theorem send_of_uncountable {streaming : Bool} {fault : Fault}
    (hconnected : p.connection.isSome = true) (hcount : requireCountable payload = .error fault) :
    p.send service streaming model payload given = ⟨[], .error fault⟩ := by
  rw [send, Activity.ofOutcome_bind_of_ok (requireConnection_of_isSome hconnected)]
  exact Activity.ofOutcome_bind_of_error hcount _

/-- What cannot be recorded is not sent. -/
theorem send_of_unrecorded {streaming : Bool} {fault : Fault}
    (hconnected : p.connection.isSome = true) (hcount : requireCountable payload = .ok ())
    (hrecord : p.recordOf (if streaming then "stream" else "chat") model payload
      (Options.resolve p.settings given) = .error fault) :
    p.send service streaming model payload given = ⟨[], .error fault⟩ := by
  rw [send, Activity.ofOutcome_bind_of_ok (requireConnection_of_isSome hconnected),
    Activity.ofOutcome_bind_of_ok hcount, record_of_error hrecord]
  rfl

/-- A request that can be recorded is recorded and then sent. -/
theorem send_of_recorded {streaming : Bool} {record : Option RequestRecord}
    (hconnected : p.connection.isSome = true) (hcount : requireCountable payload = .ok ())
    (hrecord : p.recordOf (if streaming then "stream" else "chat") model payload
      (Options.resolve p.settings given) = .ok record) :
    p.send service streaming model payload given =
      .noting record.toList (p.ask service streaming model payload given) := by
  rw [send, Activity.ofOutcome_bind_of_ok (requireConnection_of_isSome hconnected),
    Activity.ofOutcome_bind_of_ok hcount, record_of_ok hrecord]
  exact Activity.bind_of_ok rfl _

/-- A request that can be made is made, and answered by the service. -/
theorem ask_of_request {streaming : Bool} {request : Request}
    (h : p.vendor.request streaming model payload (Options.resolve p.settings given) =
      .ok request) :
    p.ask service streaming model payload given = ⟨[.requested request], p.answer service⟩ := by
  rw [ask, Activity.ofOutcome_bind_of_ok h, Activity.perform_bind, answer]
  cases service.refusal <;> rfl

/-- A request is sent if it can be, else something fails before that. All that can happen before
either is that the request is recorded. -/
theorem send_cases (p : Provider) (service : Service) (streaming : Bool) (model : Value)
    (payload : Payload) (given : Fields) :
    ∃ records : List RequestRecord,
      (p.CanSend streaming model payload given ∧ ∃ request,
        p.vendor.request streaming model payload (Options.resolve p.settings given) = .ok request ∧
        p.send service streaming model payload given =
          ⟨records.map .recorded ++ [.requested request], p.answer service⟩) ∨
      (¬ p.CanSend streaming model payload given ∧ ∃ fault,
        p.send service streaming model payload given = ⟨records.map .recorded, .error fault⟩) := by
  -- the steps are looked at one after another, up to the first that fails
  rcases hconnection : p.connection with _ | connection
  · refine ⟨[], .inr ⟨?_, _, send_of_unconnected hconnection⟩⟩
    intro h
    simpa [hconnection] using h.connected
  have hconnected : p.connection.isSome = true := by simp [hconnection]
  rcases hcount : requireCountable payload with fault | u
  · refine ⟨[], .inr ⟨?_, fault, send_of_uncountable hconnected hcount⟩⟩
    intro h
    simpa [hcount] using h.countable
  rcases hrecord : p.recordOf (if streaming then "stream" else "chat") model payload
    (Options.resolve p.settings given) with fault | record
  · refine ⟨[], .inr ⟨?_, fault, send_of_unrecorded hconnected hcount hrecord⟩⟩
    intro h
    rcases h.recorded with ⟨record, hok⟩
    cases hrecord.symm.trans hok
  refine ⟨record.toList, ?_⟩
  rw [send_of_recorded hconnected hcount hrecord]
  rcases hrequest : p.vendor.request streaming model payload (Options.resolve p.settings given)
    with fault | request
  · refine .inr ⟨?_, fault, ?_⟩
    · intro h
      rcases h.request with ⟨request, hok⟩
      cases hrequest.symm.trans hok
    · rw [ask, Activity.ofOutcome_bind_of_error hrequest, Activity.noting, List.append_nil]
  · refine .inl ⟨⟨hconnected, hcount, ⟨record, hrecord⟩, ⟨request, hrequest⟩⟩, request, rfl, ?_⟩
    rw [ask_of_request hrequest]
    rfl

/-- A request that can be sent and is not refused is sent. -/
theorem send_of_canSend {streaming : Bool} (hcan : p.CanSend streaming model payload given)
    (hrefusal : service.refusal = none) :
    ∃ (records : List RequestRecord) (request : Request),
      p.send service streaming model payload given =
        ⟨records.map .recorded ++ [.requested request], .ok ()⟩ := by
  rcases send_cases p service streaming model payload given with
    ⟨records, ⟨-, request, -, hsend⟩ | ⟨hcannot, -⟩⟩
  · have hanswer : p.answer service = .ok () := by
      simp [answer, hrefusal]
    rw [hanswer] at hsend
    exact ⟨records, request, hsend⟩
  · exact absurd hcan hcannot

end Provider

/-! ## Events of a stream -/

namespace Vendor

variable {vendor : Vendor} {event : Value}

/-- Whether the chunk of an event completes the reply. This fails if the event cannot be read. -/
def ends (vendor : Vendor) (event : Value) : Outcome Bool := do
  Provider.completes (← vendor.readEvent event).chunk?

/-- Whether a stream goes on after an event: it can be read, and does not complete the reply. -/
def goesOn (vendor : Vendor) (event : Value) : Bool :=
  match vendor.ends event with
  | .ok false => true
  | _ => false

/-- The events up to and including the first after which the stream does not go on. -/
def upToEnd (vendor : Vendor) (events : List Value) : List Value :=
  events.take ((events.takeWhile vendor.goesOn).length + 1)

def chunkOf? (vendor : Vendor) (event : Value) : Option (Option Message) :=
  match vendor.readEvent event with
  | .ok reading => some reading.chunk?
  | .error _ => none

def actionsOf (vendor : Vendor) (event : Value) : List Action :=
  .received event :: ((vendor.chunkOf? event).map .yielded).toList

/-- A stream goes on after an event that is read and does not end it. -/
theorem goesOn_iff : vendor.goesOn event = true ↔ vendor.ends event = .ok false := by
  rw [goesOn]
  split
  · simpa
  · simpa

@[simp] theorem upToEnd_nil : vendor.upToEnd [] = [] := rfl

/-- An event after which the stream goes on is read, and so are those that follow. -/
theorem upToEnd_of_goesOn (h : vendor.goesOn event = true) (rest : List Value) :
    vendor.upToEnd (event :: rest) = event :: vendor.upToEnd rest := by
  simp [upToEnd, h]

/-- An event that ends the stream is the last one read. -/
theorem upToEnd_of_stops (h : vendor.goesOn event = false) (rest : List Value) :
    vendor.upToEnd (event :: rest) = [event] := by
  simp [upToEnd, h]

/-- Nothing that follows the first event after which the stream does not go on counts. -/
theorem upToEnd_append {before : List Value} (hgoing : ∀ e ∈ before, vendor.goesOn e = true)
    (h : vendor.goesOn event = false) (rest : List Value) :
    vendor.upToEnd (before ++ event :: rest) = before ++ [event] := by
  induction before with
  | nil => exact upToEnd_of_stops h rest
  | cons first before ih =>
    rcases List.forall_mem_cons.1 hgoing with ⟨hfirst, hbefore⟩
    rw [List.cons_append, upToEnd_of_goesOn hfirst, ih hbefore, List.cons_append]

end Vendor

def atMost {α : Type} (limit : Option Nat) (xs : List α) : List α :=
  match limit with
  | some k => xs.take k
  | none => xs

@[simp] theorem atMost_nil {α : Type} (limit : Option Nat) : atMost limit ([] : List α) = [] := by
  cases limit <;> simp [atMost]

/-- Of a limited number of things the first is one. -/
theorem atMost_cons {α : Type} {limit : Option Nat} (h : limit ≠ some 0) (x : α) (xs : List α) :
    atMost limit (x :: xs) = x :: atMost (limit.map (· - 1)) xs := by
  rcases limit with _ | _ | k
  · rfl
  · exact absurd rfl h
  · rfl

/-! ## Reading a stream -/

namespace Provider

/-- What a failure of the service surfaces as: a report under the provider's name if it is one of
its own vendor's, else the failure itself. -/
inductive Surfaces (p : Provider) (failure : VendorFailure) : Fault → Prop where
  | own (owned : p.vendor.owns failure.kind = true) :
      Surfaces p failure (.vendorCall p.name failure)
  | foreign (owned : p.vendor.owns failure.kind = false) : Surfaces p failure (.foreign failure)

/-- What a provider reports of a failure is how the failure surfaces. -/
theorem surfaces_report (p : Provider) (failure : VendorFailure) :
    p.Surfaces failure (p.report failure) := by
  rw [report]
  cases howned : p.vendor.owns failure.kind with
  | true => exact .own howned
  | false => exact .foreign howned

/-- The ways in which reading a stream ends, by the events that were read. -/
inductive Ending (p : Provider) (breakdown : Option VendorFailure) (limit : Option Nat) :
    List Value → Outcome Unit → Prop where
  /-- The last event completes the reply. -/
  | completed {before : List Value} {event : Value}
      (going : ∀ e ∈ before, p.vendor.goesOn e = true) (ends : p.vendor.ends event = .ok true) :
      Ending p breakdown limit (before ++ [event]) (.ok ())
  /-- The last event cannot be read. -/
  | unreadable {before : List Value} {event : Value} {fault : Fault}
      (going : ∀ e ∈ before, p.vendor.goesOn e = true)
      (fails : p.vendor.ends event = .error fault) :
      Ending p breakdown limit (before ++ [event]) (.error fault)
  /-- The consumer has taken all that it wants. -/
  | closed {taken : List Value} (going : ∀ e ∈ taken, p.vendor.goesOn e = true)
      (enough : limit = some taken.length) : Ending p breakdown limit taken (.ok ())
  /-- The service has no more events. -/
  | exhausted {taken : List Value} (going : ∀ e ∈ taken, p.vendor.goesOn e = true)
      (wanted : limit ≠ some taken.length) (sound : breakdown = none) :
      Ending p breakdown limit taken (.ok ())
  /-- The service breaks down. -/
  | broken {taken : List Value} {failure : VendorFailure} {fault : Fault}
      (going : ∀ e ∈ taken, p.vendor.goesOn e = true) (wanted : limit ≠ some taken.length)
      (breaks : breakdown = some failure) (surfaces : p.Surfaces failure fault) :
      Ending p breakdown limit taken (.error fault)

variable {p : Provider} {breakdown : Option VendorFailure} {limit : Option Nat} {event : Value}
  {rest : List Value}

/-- An event after which the stream goes on is read first, and how the rest ends is how all ends. -/
theorem Ending.cons {taken : List Value} {outcome : Outcome Unit}
    (h : p.Ending breakdown (limit.map (· - 1)) taken outcome) (hwanted : limit ≠ some 0)
    (hgoing : p.vendor.goesOn event = true) :
    p.Ending breakdown limit (event :: taken) outcome := by
  have hall : ∀ {events : List Value}, (∀ e ∈ events, p.vendor.goesOn e = true) →
      ∀ e ∈ event :: events, p.vendor.goesOn e = true := by
    intro events hevents
    exact List.forall_mem_cons.2 ⟨hgoing, hevents⟩
  have hlimit : limit.map (· - 1) = some taken.length ↔ limit = some (event :: taken).length := by
    rcases limit with _ | _ | k
    · simp
    · exact absurd rfl hwanted
    · simp
  cases h with
  | completed going ends => exact .completed (hall going) ends
  | unreadable going fails => exact .unreadable (hall going) fails
  | closed going enough => exact .closed (hall going) (hlimit.1 enough)
  | exhausted going wanted sound =>
    exact .exhausted (hall going) (fun henough => wanted (hlimit.2 henough)) sound
  | broken going wanted breaks surfaces =>
    exact .broken (hall going) (fun henough => wanted (hlimit.2 henough)) breaks surfaces

/-- An event after which the stream does not go on is the last. -/
theorem Ending.of_stops (h : p.vendor.goesOn event = false) :
    p.Ending breakdown limit [event] ((p.vendor.ends event).map fun _ => ()) := by
  have hnone : ∀ e ∈ ([] : List Value), p.vendor.goesOn e = true := by simp
  rcases hends : p.vendor.ends event with fault | complete
  · exact .unreadable hnone hends
  · cases complete with
    | true => exact .completed hnone hends
    | false =>
      rw [Vendor.goesOn_iff.2 hends] at h
      cases h

/-- For a consumer that wants all there is, a stream whose last event completes the reply ends well,
even if the service would have broken down later. -/
theorem Ending.ok_of_ends {before : List Value} {outcome : Outcome Unit}
    (h : p.Ending breakdown none (before ++ [event]) outcome)
    (hends : p.vendor.ends event = .ok true) : outcome = .ok () := by
  generalize htaken : before ++ [event] = taken at h
  have hmem : event ∈ taken := by simp [← htaken]
  cases h with
  | completed going ends => rfl
  | unreadable going fails =>
    rcases List.append_inj' htaken rfl with ⟨-, hsame⟩
    cases hsame
    cases hends.symm.trans fails
  | closed going enough => cases enough
  | exhausted going wanted sound => rfl
  | broken going wanted breaks surfaces =>
    cases hends.symm.trans (Vendor.goesOn_iff.1 (going event hmem))

/-- A stream without further events ends, or breaks down. -/
theorem handOut_nil (hwanted : limit ≠ some 0) :
    p.handOut breakdown limit [] = ⟨[], match breakdown with
      | some failure => .error (p.report failure)
      | none => .ok ()⟩ := by
  rcases limit with _ | _ | k
  · cases breakdown <;> rfl
  · exact absurd rfl hwanted
  · cases breakdown <;> rfl

theorem handOut_cons (hwanted : limit ≠ some 0) :
    p.handOut breakdown limit (event :: rest) = (do
      .perform (.received event)
      let reading ← .ofOutcome (p.vendor.readEvent event)
      .perform (.yielded reading.chunk?)
      if ← .ofOutcome (completes reading.chunk?) then pure ()
      else p.handOut breakdown (limit.map (· - 1)) rest) := by
  rw [handOut, if_neg hwanted]

/-- An event after which the stream goes on is handed out, and then the rest is. -/
theorem handOut_of_goesOn (hwanted : limit ≠ some 0) (h : p.vendor.goesOn event = true) :
    p.handOut breakdown limit (event :: rest) =
      ⟨p.vendor.actionsOf event ++ (p.handOut breakdown (limit.map (· - 1)) rest).actions,
        (p.handOut breakdown (limit.map (· - 1)) rest).outcome⟩ := by
  rcases Outcome.of_bind_eq_ok (Vendor.goesOn_iff.1 h) with ⟨reading, hread, hcompletes⟩
  rw [handOut_cons hwanted, Activity.perform_bind, Activity.ofOutcome_bind_of_ok hread,
    Activity.perform_bind, Activity.ofOutcome_bind_of_ok hcompletes]
  simp [Vendor.actionsOf, Vendor.chunkOf?, hread]

/-- An event that ends the stream is handed out, and nothing after it is read. -/
theorem handOut_of_stops (hwanted : limit ≠ some 0) (h : p.vendor.goesOn event = false) :
    p.handOut breakdown limit (event :: rest) =
      ⟨p.vendor.actionsOf event, (p.vendor.ends event).map fun _ => ()⟩ := by
  rw [handOut_cons hwanted, Activity.perform_bind]
  cases hread : p.vendor.readEvent event with
  | error fault =>
    rw [Activity.ofOutcome_bind_of_error rfl]
    -- nothing is handed out of an event that cannot be read
    simp [Vendor.actionsOf, Vendor.chunkOf?, Vendor.ends, hread, bind, Except.bind, Except.map]
  | ok reading =>
    have hends : p.vendor.ends event = completes reading.chunk? := Outcome.bind_of_ok hread
    rw [Activity.ofOutcome_bind_of_ok rfl, Activity.perform_bind, hends]
    rcases hcompletes : completes reading.chunk? with fault | complete
    · rw [Activity.ofOutcome_bind_of_error rfl]
      simp [Vendor.actionsOf, Vendor.chunkOf?, hread, Except.map]
    · -- a chunk that does not complete the reply would let the stream go on
      have hcomplete : complete = true := by
        cases complete with
        | true => rfl
        | false =>
          rw [Vendor.goesOn_iff.2 (hends.trans hcompletes)] at h
          cases h
      rw [Activity.ofOutcome_bind_of_ok rfl]
      simp [Vendor.actionsOf, Vendor.chunkOf?, hread, hcomplete, Except.map]

/-- Where nothing more is wanted, nothing more is read. -/
theorem handOut_of_enough (events : List Value) :
    p.handOut breakdown (some 0) events = ⟨[], .ok ()⟩ := by
  cases events <;> rfl

/-- Of the events up to the end as many are read as the consumer wants chunks, and each chunk is
handed out at once. -/
theorem handOut_run (p : Provider) (breakdown : Option VendorFailure) (limit : Option Nat)
    (events : List Value) :
    (p.handOut breakdown limit events).actions =
        (atMost limit (p.vendor.upToEnd events)).flatMap p.vendor.actionsOf ∧
      p.Ending breakdown limit (atMost limit (p.vendor.upToEnd events))
        (p.handOut breakdown limit events).outcome := by
  -- every event uses up one of the chunks that are wanted, so the limit varies along the events
  induction events generalizing limit with
  | nil =>
    have hnone : atMost limit (p.vendor.upToEnd []) = [] := by simp
    rw [hnone]
    by_cases hwanted : limit = some 0
    · subst hwanted
      exact ⟨rfl, .closed (by simp) rfl⟩
    · rw [handOut_nil hwanted]
      refine ⟨rfl, ?_⟩
      cases hbreakdown : breakdown with
      | none => exact .exhausted (by simp) hwanted rfl
      | some failure => exact .broken (by simp) hwanted rfl (surfaces_report p failure)
  | cons event rest ih =>
    by_cases hwanted : limit = some 0
    · -- nothing is read for a consumer that wants nothing more
      subst hwanted
      rw [handOut_of_enough]
      exact ⟨rfl, .closed (by simp [atMost]) rfl⟩
    · cases hgoing : p.vendor.goesOn event with
      | true =>
        rcases ih (limit.map (· - 1)) with ⟨hactions, hending⟩
        rw [handOut_of_goesOn hwanted hgoing, Vendor.upToEnd_of_goesOn hgoing, atMost_cons hwanted]
        exact ⟨by rw [hactions, List.flatMap_cons], hending.cons hwanted hgoing⟩
      | false =>
        rw [handOut_of_stops hwanted hgoing, Vendor.upToEnd_of_stops hgoing, atMost_cons hwanted,
          atMost_nil]
        exact ⟨by simp, .of_stops hgoing⟩

/-! ## A streamed call -/

/-- The events that were read can be told from what was done. -/
theorem events_actionsOf (events : List Value) :
    (events.flatMap p.vendor.actionsOf).filterMap Action.event? = events := by
  induction events with
  | nil => rfl
  | cons event rest ih =>
    rw [List.flatMap_cons, List.filterMap_append, ih]
    cases hchunk : p.vendor.chunkOf? event <;> simp [Vendor.actionsOf, hchunk, Action.event?]

theorem chunks_actionsOf (events : List Value) :
    (events.flatMap p.vendor.actionsOf).filterMap Action.chunk? =
      events.filterMap p.vendor.chunkOf? := by
  induction events with
  | nil => rfl
  | cons event rest ih =>
    rw [List.flatMap_cons, List.filterMap_append, ih]
    cases hchunk : p.vendor.chunkOf? event <;>
      simp [Vendor.actionsOf, hchunk, Action.chunk?, List.filterMap_cons]

theorem closings_actionsOf (events : List Value) :
    (events.flatMap p.vendor.actionsOf).countP Action.isClosed = 0 := by
  induction events with
  | nil => rfl
  | cons event rest ih =>
    rw [List.flatMap_cons, List.countP_append, ih]
    cases hchunk : p.vendor.chunkOf? event <;> simp [Vendor.actionsOf, hchunk, Action.isClosed]

/-- A chunk is asked for, and a request for it can be sent. -/
def Asked (p : Provider) (model : Value) (payload : Payload) (given : Fields)
    (limit : Option Nat) : Prop :=
  Options.requireFree Options.payloadCall given = .ok () ∧ limit ≠ some 0 ∧
    p.CanSend true model payload given

structure Lifecycle (p : Provider) (service : Service) (model : Value) (payload : Payload)
    (given : Fields) (limit : Option Nat) (run : Activity Unit) : Prop where
  asks : run.asks = true ↔ p.Asked model payload given limit
  /-- A stream is opened if the service does not refuse the request. -/
  opens : run.opens = true ↔ run.asks = true ∧ service.refusal = none
  refused : run.asks = true → ∀ failure, service.refusal = some failure →
    ∃ fault, run.outcome = .error fault ∧ p.Surfaces failure fault
  /-- As many events are read as chunks are wanted, and none after the end. -/
  events : run.events = if run.opens then atMost limit (p.vendor.upToEnd service.events) else []
  chunks : run.chunks = run.events.filterMap p.vendor.chunkOf?
  ending : run.opens = true → p.Ending service.breakdown limit run.events run.outcome
  /-- The chunk of an event is handed out before the next is read, and closing comes last. -/
  trace : run.opens = true → ∃ sent, run.actions =
    sent ++ .opened :: (run.events.flatMap p.vendor.actionsOf ++ service.closer.actions)
  closings : run.closings = if run.opens && service.closer != .absent then 1 else 0

/-- A call in which no stream is opened: no request is sent, or it is refused. -/
theorem lifecycle_of_unopened {run : Activity Unit} (records : List RequestRecord)
    (requests : List Request)
    (hrun : run.actions = records.map .recorded ++ requests.map .requested)
    (hasked : requests ≠ [] ↔ p.Asked model payload given limit)
    (hrefused : requests ≠ [] → ∃ failure, service.refusal = some failure ∧
      run.outcome = .error (p.report failure)) :
    p.Lifecycle service model payload given limit run := by
  have hasks : run.asks = true ↔ requests ≠ [] := by
    cases requests <;> simp [Activity.asks, hrun, Action.isRequested]
  have hopens : run.opens = false := by
    simp [Activity.opens, hrun, Action.isOpened]
  have hevents : run.events = [] := by
    simp [Activity.events, hrun, Action.event?, Function.comp_def]
  have hchunks : run.chunks = [] := by
    simp [Activity.chunks, hrun, Action.chunk?, Function.comp_def]
  have hclosings : run.closings = 0 := by
    simp [Activity.closings, hrun, Action.isClosed]
  exact
    { asks := hasks.trans hasked
      opens := by
        simp only [hopens, Bool.false_eq_true, false_iff, not_and]
        intro h hnone
        rcases hrefused (hasks.1 h) with ⟨failure, hsome, -⟩
        cases hnone.symm.trans hsome
      refused := by
        intro h failure hsome
        rcases hrefused (hasks.1 h) with ⟨other, hother, houtcome⟩
        cases hsome.symm.trans hother
        exact ⟨_, houtcome, surfaces_report p failure⟩
      events := by simp [hopens, hevents]
      chunks := by simp [hchunks, hevents]
      ending := by simp [hopens]
      trace := by simp [hopens]
      closings := by simp [hopens, hclosings] }

/-- A call in which no request is sent. -/
theorem lifecycle_of_unasked {run : Activity Unit} (records : List RequestRecord)
    (hrun : run.actions = records.map .recorded) (h : ¬ p.Asked model payload given limit) :
    p.Lifecycle service model payload given limit run :=
  lifecycle_of_unopened records [] (by simpa using hrun) (by simpa using h) (by simp)

/-- A call in which a stream is opened. -/
theorem lifecycle_of_opened {run : Activity Unit} {records : List RequestRecord}
    {request : Request} (hasked : p.Asked model payload given limit)
    (hrefusal : service.refusal = none)
    (hrun : run.actions = records.map .recorded ++ [.requested request] ++ .opened ::
      ((p.handOut service.breakdown limit service.events).actions ++ service.closer.actions))
    (houtcome : run.outcome = (p.handOut service.breakdown limit service.events).outcome) :
    p.Lifecycle service model payload given limit run := by
  rcases handOut_run p service.breakdown limit service.events with ⟨hactions, hending⟩
  rw [hactions] at hrun
  have hasks : run.asks = true := by
    simp [Activity.asks, hrun, Action.isRequested]
  have hopens : run.opens = true := by
    simp [Activity.opens, hrun, Action.isOpened]
  have hevents : run.events = atMost limit (p.vendor.upToEnd service.events) := by
    have hclosing : service.closer.actions.filterMap Action.event? = [] := by
      cases service.closer <;> rfl
    simp [Activity.events, hrun, Action.event?, Function.comp_def, List.filterMap_cons,
      events_actionsOf, hclosing]
  have hchunks : run.chunks = run.events.filterMap p.vendor.chunkOf? := by
    have hclosing : service.closer.actions.filterMap Action.chunk? = [] := by
      cases service.closer <;> rfl
    rw [hevents]
    simp [Activity.chunks, hrun, Action.chunk?, Function.comp_def, List.filterMap_cons,
      chunks_actionsOf, hclosing]
  have hclosings : run.closings = if service.closer != .absent then 1 else 0 := by
    have hclosing : service.closer.actions.countP Action.isClosed =
        if service.closer != .absent then 1 else 0 := by
      cases service.closer <;> rfl
    simp [Activity.closings, hrun, Action.isClosed, closings_actionsOf, hclosing]
  exact
    { asks := by simpa [hasks] using hasked
      opens := by simp [hopens, hasks, hrefusal]
      refused := by simp [hrefusal]
      events := by simp [hopens, hevents]
      chunks := hchunks
      ending := by
        intro _
        rw [hevents, houtcome]
        exact hending
      trace := by
        intro _
        rw [hevents, hrun]
        exact ⟨_, rfl⟩
      closings := by simp [hopens, hclosings] }

/-- A call for which a chunk is asked and which is not refused. -/
theorem lifecycle_of_asked (hasked : p.Asked model payload given limit)
    (hrefusal : service.refusal = none) :
    p.Lifecycle service model payload given limit
      (p.stream service model payload given limit) := by
  rcases hasked with ⟨hfree, hwanted, hcan⟩
  rcases send_of_canSend hcan hrefusal with ⟨records, request, hsend⟩
  have hanswer : (p.send service true model payload given).outcome = .ok () := by
    rw [hsend]
  rw [stream, Activity.ofOutcome_bind_of_ok hfree, if_neg hwanted, Activity.bind_of_ok hanswer,
    hsend]
  exact lifecycle_of_opened ⟨hfree, hwanted, hcan⟩ hrefusal rfl rfl

/-- Whatever the service does and however many chunks the consumer takes: a stream that is opened is
read up to the first of the ends that it can come to, and then closed once, and no other stream is
read or closed. -/
theorem stream_lifecycle (p : Provider) (service : Service) (model : Value) (payload : Payload)
    (given : Fields) (limit : Option Nat) :
    p.Lifecycle service model payload given limit
      (p.stream service model payload given limit) := by
  rcases hfree : Options.requireFree Options.payloadCall given with fault | free
  · rw [stream, Activity.ofOutcome_bind_of_error hfree]
    refine lifecycle_of_unasked [] rfl ?_
    intro h
    cases hfree.symm.trans h.1
  rw [stream, Activity.ofOutcome_bind_of_ok hfree]
  by_cases hwanted : limit = some 0
  · rw [if_pos hwanted]
    refine lifecycle_of_unasked [] rfl ?_
    intro h
    exact h.2.1 hwanted
  rw [if_neg hwanted]
  rcases send_cases p service true model payload given with
    ⟨records, ⟨hcan, request, -, hsend⟩ | ⟨hcannot, fault, hsend⟩⟩
  · have hasked : p.Asked model payload given limit := ⟨hfree, hwanted, hcan⟩
    rcases hrefusal : service.refusal with _ | failure
    · have hanswer : (p.send service true model payload given).outcome = .ok () := by
        simp [hsend, answer, hrefusal]
      rw [Activity.bind_of_ok hanswer, hsend]
      exact lifecycle_of_opened hasked hrefusal rfl rfl
    · have hanswer : (p.send service true model payload given).outcome =
          .error (p.report failure) := by
        simp [hsend, answer, hrefusal]
      rw [Activity.bind_of_error hanswer, hsend]
      refine lifecycle_of_unopened records [request] rfl (by simpa using hasked) ?_
      intro _
      exact ⟨failure, hrefusal, rfl⟩
  · have hfault : (p.send service true model payload given).outcome = .error fault := by
      rw [hsend]
    rw [Activity.bind_of_error hfault, hsend]
    refine lifecycle_of_unasked records rfl ?_
    intro h
    exact hcannot h.2.2

end Provider

end Parley
