import Parley.Proofs.Provider.Lifecycle
import Parley.Proofs.Request
import Parley.Provider.Complete

/-!
# The requests that calls send

A provider is called for a reply or for a streamed one. This file says which requests the two kinds
of call send, whatever the service does: none if something stands against the call, and otherwise
the one request that says what the call says, the same for both but for the stream.

* `requests_complete`, `requests_stream`: which requests a call sends;
* `complete_congr`, `stream_congr`: what a call is, without the options there are not;
* `SendsAlike`: what a provider sends for one model, payload and options;
* `requests_of_calls`: the requests of all calls.
-/

namespace Parley

def Action.request? : Action → Option Request
  | .requested request => some request
  | _ => none

namespace Activity

variable {α β : Type}

def requests (run : Activity α) : List Request :=
  run.actions.filterMap Action.request?

/-- What sends nothing adds no requests. -/
theorem requests_bind_of_silent {first : Activity α} {next : α → Activity β}
    (hsilent : ∀ x, (next x).requests = []) : (first >>= next).requests = first.requests := by
  rcases hfirst : first.outcome with fault | x
  · rw [bind_of_error hfirst, requests, requests]
  · have hnext := hsilent x
    rw [requests] at hnext
    rw [bind_of_ok hfirst, requests, List.filterMap_append, hnext, List.append_nil, requests]

end Activity

namespace Provider

variable {p : Provider} {service : Service} {model : Value} {payload : Payload}
  {given others : Fields} {streaming : Bool} {limit : Option Nat} {request : Request}

/-! ## What is sent -/

/-- A call that can send makes one request. -/
theorem requests_send_of_canSend (hcan : p.CanSend streaming model payload given)
    (hrequest : p.vendor.request streaming model payload (Options.resolve p.settings given) =
      .ok request) :
    (p.send service streaming model payload given).requests = [request] := by
  rcases send_cases p service streaming model payload given with
    ⟨records, ⟨-, sent, hsent, hsend⟩ | ⟨hcannot, -⟩⟩
  · cases hrequest.symm.trans hsent
    simp [hsend, Activity.requests, Action.request?, Function.comp_def]
  · exact absurd hcan hcannot

theorem requests_send_of_not_canSend (hcannot : ¬ p.CanSend streaming model payload given) :
    (p.send service streaming model payload given).requests = [] := by
  rcases send_cases p service streaming model payload given with
    ⟨records, ⟨hcan, -⟩ | ⟨-, fault, hsend⟩⟩
  · exact absurd hcan hcannot
  · simp [hsend, Activity.requests, Action.request?, Function.comp_def]

/-- Completing a payload makes the requests of sending it. -/
theorem requests_complete (hfree : Options.requireFree Options.payloadCall given = .ok ()) :
    (p.complete service model payload given).requests =
      (p.send service false model payload given).requests := by
  rw [complete, Activity.ofOutcome_bind_of_ok hfree]
  refine Activity.requests_bind_of_silent fun _ => ?_
  exact Activity.requests_bind_of_silent fun _ => rfl

/-- Reading an event makes no requests. -/
theorem requests_actionsOf (vendor : Vendor) (event : Value) :
    (vendor.actionsOf event).filterMap Action.request? = [] := by
  cases hchunk : vendor.chunkOf? event <;> simp [Vendor.actionsOf, hchunk, Action.request?]

/-- While a stream is read and closed, nothing is asked for. -/
theorem requests_handOut (p : Provider) (service : Service) (limit : Option Nat) :
    ((p.handOut service.breakdown limit service.events).ending service.closer.actions).requests =
      [] := by
  have hhanded : (p.handOut service.breakdown limit service.events).actions.filterMap
      Action.request? = [] := by
    rw [(handOut_run p service.breakdown limit service.events).1, List.filterMap_flatMap]
    simp [requests_actionsOf]
  have hclosing : service.closer.actions.filterMap Action.request? = [] := by
    cases service.closer <;> rfl
  rw [Activity.requests, Activity.ending, List.filterMap_append, hhanded, hclosing]
  rfl

/-- Streaming makes the requests of sending, if a chunk is wanted. -/
theorem requests_stream (hfree : Options.requireFree Options.payloadCall given = .ok ())
    (hwanted : limit ≠ some 0) :
    (p.stream service model payload given limit).requests =
      (p.send service true model payload given).requests := by
  rw [stream, Activity.ofOutcome_bind_of_ok hfree, if_neg hwanted]
  refine Activity.requests_bind_of_silent fun _ => ?_
  rw [Activity.perform_bind, Activity.requests, List.filterMap_cons_none rfl]
  exact requests_handOut p service limit

def Called (p : Provider) (model : Value) (payload : Payload) (given : Fields) : Prop :=
  Options.requireFree Options.payloadCall given = .ok () ∧ p.CanSend false model payload given

/-- A call that gets through makes the request of its payload. -/
theorem requests_of_called (hcalled : p.Called model payload given)
    (hrequest : p.vendor.request false model payload (Options.resolve p.settings given) =
      .ok request) :
    (p.complete service model payload given).requests = [request] := by
  rw [requests_complete hcalled.1, requests_send_of_canSend hcalled.2 hrequest]

theorem requests_of_not_called (h : ¬ p.Called model payload given) :
    (p.complete service model payload given).requests = [] := by
  rcases hfree : Options.requireFree Options.payloadCall given with fault | u
  · rw [complete, Activity.ofOutcome_bind_of_error hfree]
    rfl
  · rw [requests_complete hfree, requests_send_of_not_canSend fun hcan => h ⟨hfree, hcan⟩]

/-- A stream that is asked for makes the request of its payload. -/
theorem requests_of_asked (hasked : p.Asked model payload given limit)
    (hrequest : p.vendor.request true model payload (Options.resolve p.settings given) =
      .ok request) :
    (p.stream service model payload given limit).requests = [request] := by
  rw [requests_stream hasked.1 hasked.2.1, requests_send_of_canSend hasked.2.2 hrequest]

theorem requests_of_not_asked (h : ¬ p.Asked model payload given limit) :
    (p.stream service model payload given limit).requests = [] := by
  rcases hfree : Options.requireFree Options.payloadCall given with fault | u
  · rw [stream, Activity.ofOutcome_bind_of_error hfree]
    rfl
  by_cases hwanted : limit = some 0
  · rw [stream, Activity.ofOutcome_bind_of_ok hfree, if_pos hwanted]
    rfl
  · rw [requests_stream hfree hwanted,
      requests_send_of_not_canSend fun hcan => h ⟨hfree, hwanted, hcan⟩]

/-! ## Options that nobody knows -/

/-- Options that differ in none of those there are. What has the name of a part of the call is no
option and does not differ either. -/
def SameOptions (given others : Fields) : Prop :=
  ∀ name ∈ Options.documented ++ Options.payloadCall, others.lookup name = given.lookup name

/-- Whether options are free depends on the documented ones and those that are parameters. -/
theorem requireFree_congr (h : SameOptions given others) :
    Options.requireFree Options.payloadCall others =
      Options.requireFree Options.payloadCall given := by
  have hself := h "self" (by simp [Options.documented, Options.payloadCall])
  have hmodel := h "model" (by simp [Options.documented, Options.payloadCall])
  have hpayload := h "payload" (by simp [Options.documented, Options.payloadCall])
  have htaken : (Options.payloadCall.any fun name => (others.lookup name).isSome) =
      Options.payloadCall.any fun name => (given.lookup name).isSome := by
    simp only [Options.payloadCall, List.any_cons, List.any_nil, hself, hmodel, hpayload]
  rw [Options.requireFree, Options.requireFree, htaken]

/-- The same options come to the same settings. -/
theorem SameOptions.resolve (h : SameOptions given others) (settings : Option Settings) :
    ∀ name ∈ Options.documented, (Options.resolve settings others).lookup name =
      (Options.resolve settings given).lookup name :=
  fun name hname => Options.lookup_resolve_congr (h name (List.mem_append_left _ hname))

theorem recordOf_congr (h : SameOptions given others) (kind : String) :
    p.recordOf kind model payload (Options.resolve p.settings others) =
      p.recordOf kind model payload (Options.resolve p.settings given) := by
  have htemperature := h.resolve p.settings "temperature" (by simp [Options.documented])
  have hlimit := h.resolve p.settings "max_tokens" (by simp [Options.documented])
  simp only [recordOf, RequestLog.keep, RequestRecord.ofRequest, Value.get, Value.get?,
    htemperature, hlimit]

/-- A call sends the same with the same options. -/
theorem send_congr (h : SameOptions given others) :
    p.send service streaming model payload others =
      p.send service streaming model payload given := by
  simp only [send, record, recordOf_congr h, Vendor.request_congr (h.resolve p.settings)]

theorem complete_congr (h : SameOptions given others) :
    p.complete service model payload others = p.complete service model payload given := by
  rw [complete, complete, requireFree_congr h, send_congr h]

theorem stream_congr (h : SameOptions given others) :
    p.stream service model payload others limit = p.stream service model payload given limit := by
  rw [stream, stream, requireFree_congr h, send_congr h]

/-! ## All calls -/

/-- What a provider sends when it is called for a reply and for a stream. -/
structure SendsAlike (p : Provider) (model : Value) (payload : Payload) (given : Fields)
    (plain streamed : Request) : Prop where
  built : p.vendor.request false model payload (Options.resolve p.settings given) = .ok plain
  streamBuilt : p.vendor.request true model payload (Options.resolve p.settings given) =
    .ok streamed
  faithful : Faithful p.vendor p.settings model payload given plain
  streamFaithful : Faithful p.vendor p.settings model payload given streamed
  alike : p.vendor.Streams plain streamed
  complete : ∀ service, p.Called model payload given ∧
      (p.complete service model payload given).requests = [plain] ∨
    ¬ p.Called model payload given ∧ (p.complete service model payload given).requests = []
  stream : ∀ service limit, p.Asked model payload given limit ∧
      (p.stream service model payload given limit).requests = [streamed] ∨
    ¬ p.Asked model payload given limit ∧
      (p.stream service model payload given limit).requests = []

/-- A call whose stop option has no form for the vendor sends nothing, however it is answered. -/
structure SendsNothing (p : Provider) (model : Value) (payload : Payload) (given : Fields) :
    Prop where
  formless : ∀ form, ¬ p.vendor.Puts .stop (Parameter.stop.chosen p.settings given) form
  complete : ∀ service, (p.complete service model payload given).requests = []
  stream : ∀ service limit, (p.stream service model payload given limit).requests = []

/-- Where the stop sequences have a form, one request is made on either path. -/
theorem sendsAlike_of_puts {stop : Value}
    (hstop : p.vendor.Puts .stop (Parameter.stop.chosen p.settings given) stop)
    (hmade : ∀ streaming,
      p.vendor.request streaming model payload (Options.resolve p.settings given) =
        .ok (p.vendor.made streaming model payload (Options.resolve p.settings given) stop)) :
    p.SendsAlike model payload given
      (p.vendor.made false model payload (Options.resolve p.settings given) stop)
      (p.vendor.made true model payload (Options.resolve p.settings given) stop) where
  built := hmade false
  streamBuilt := hmade true
  faithful := Vendor.faithful_made false hstop
  streamFaithful := Vendor.faithful_made true hstop
  alike := Vendor.streams_made
  complete service := by
    by_cases hcalled : p.Called model payload given
    · exact .inl ⟨hcalled, requests_of_called hcalled (hmade false)⟩
    · exact .inr ⟨hcalled, requests_of_not_called hcalled⟩
  stream service limit := by
    by_cases hasked : p.Asked model payload given limit
    · exact .inl ⟨hasked, requests_of_asked hasked (hmade true)⟩
    · exact .inr ⟨hasked, requests_of_not_asked hasked⟩

/-- Where they have none, nothing is sent on either. -/
theorem sendsNothing_of_formless {fault : Fault}
    (hformless : ∀ form, ¬ p.vendor.Puts .stop (Parameter.stop.chosen p.settings given) form)
    (hfails : ∀ streaming, p.vendor.request streaming model payload
      (Options.resolve p.settings given) = .error fault) :
    p.SendsNothing model payload given := by
  have hcannot : ∀ streaming, ¬ p.CanSend streaming model payload given := by
    intro streaming hcan
    rcases hcan.request with ⟨request, hrequest⟩
    cases (hfails streaming).symm.trans hrequest
  exact
    { formless := hformless
      complete := fun service => requests_of_not_called fun h => hcannot false h.2
      stream := fun service limit => requests_of_not_asked fun h => hcannot true h.2.2 }

/-- Whatever is called for with whatever settings and options, the calls for a reply and for a
stream send requests that say what is called for, each part under the vendor's name and in its form,
and both say the same. Options that nobody knows make no difference to the calls. -/
theorem requests_of_calls (p : Provider) (model : Value) (payload : Payload) (given : Fields) :
    ((∃ plain streamed, p.SendsAlike model payload given plain streamed) ∨
      p.SendsNothing model payload given) ∧
    ∀ others, SameOptions given others → ∀ service limit,
      p.complete service model payload others = p.complete service model payload given ∧
      p.stream service model payload others limit =
        p.stream service model payload given limit := by
  refine ⟨?_, fun others h service limit => ⟨complete_congr h, stream_congr h⟩⟩
  have hstop : (Options.resolve p.settings given).value "stop" =
      Parameter.stop.chosen p.settings given := Options.value_resolve p.settings given .stop
  rcases p.vendor.request_cases model payload (Options.resolve p.settings given) with
    ⟨stop, hputs, hmade⟩ | ⟨fault, hformless, hfails⟩
  · rw [hstop] at hputs
    exact .inl ⟨_, _, sendsAlike_of_puts hputs hmade⟩
  · rw [hstop] at hformless
    exact .inr (sendsNothing_of_formless hformless hfails)

/-- An option that is given as null is not replaced by the settings, a stop text is sent as a list,
and an option that nobody knows is not sent. -/
example :
    let p : Provider := { vendor := .anthropic, connection := some .handedIn, settings := some {} }
    let tools : Value := .list [.dict [("name", .str "find")]]
    let payload : Payload := { vendor := .str "anthropic", messages := .list [], tools }
    let given : Fields := [("temperature", .null), ("stop", .str "END"),
      ("tool_choice", .str "required"), ("seed", .int 7)]
    (p.complete {} (.str "claude") payload given).requests.map Request.arguments =
      [[("model", .str "claude"), ("messages", .list []), ("max_tokens", .int 1024),
        ("stop_sequences", .list [.str "END"]), ("tools", tools),
        ("tool_choice", .dict [("type", .str "any")])]] := by
  rfl

end Provider

end Parley
