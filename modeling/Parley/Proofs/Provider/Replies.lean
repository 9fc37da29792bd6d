import Parley.Proofs.Provider.Recording
import Parley.Proofs.Reply.Shape
import Parley.Proofs.Stream.Shape

/-!
# What comes of a call for a reply

A call for a reply can come to an end in many places: the conversation cannot be carried to the
vendor, there is no connection, the vendor refuses the request, or its response cannot be read. This
file says in which order these are met, what is done before each, and what the call comes to.

* `Receives`: what comes of a request that is sent, by what the service does;
* `Serves`: what is done for a payload, and what it comes to;
* `serves_of_calls`: what is done for all payloads and conversations.
-/

namespace Parley

/-- Options under names of their own, the stop option of one of the types it is meant to have. -/
structure Options.Documented (given : Fields) : Prop where
  free : ∀ name ∈ ["self", "model", "payload", "messages", "system_prompt", "tools"],
    given.lookup name = none
  stop : given.value "stop" = .null ∨ (∃ s, given.value "stop" = .str s) ∨
    ∃ items, given.value "stop" = .list items

namespace Provider

def received (p : Provider) (service : Service) : Outcome Message := do
  p.answer service
  let m ← p.vendor.readReply service.response
  return m.annotate [("provider", p.name), ("latency_ms", .float service.latency)]

/-- A reply that names the provider and tells the latency, next to what was read. -/
def Annotated (p : Provider) (service : Service) (read m : Message) : Prop :=
  ∃ model reason, read.metadata = .dict [("model", model), ("finish_reason", reason)] ∧
    m = { read with
      metadata := .dict [("model", model), ("finish_reason", reason), ("provider", p.name),
        ("latency_ms", .float service.latency)] }

/-- What comes of a request that is sent, by what the service does. -/
structure Receives (p : Provider) (service : Service) (outcome : Outcome Message) : Prop where
  /-- Refusals of the provider's own vendor are reported under its name, and nothing else is. -/
  own : ∀ name failure, outcome = .error (.vendorCall name failure) ↔
    name = p.name ∧ service.refusal = some failure ∧ p.vendor.owns failure.kind = true
  /-- All other refusals surface as they are. -/
  foreign : ∀ failure, outcome = .error (.foreign failure) ↔
    service.refusal = some failure ∧ p.vendor.owns failure.kind = false
  rejected : ∀ fault, outcome = .error (.invalidReply fault) ↔
    service.refusal = none ∧
      p.vendor.readReply service.response = .error (.invalidReply fault)
  answered : ∀ m, outcome = .ok m ↔ service.refusal = none ∧
    ∃ read, p.vendor.readReply service.response = .ok read ∧ p.Annotated service read m
  /-- There is nothing else that it can come to, but that counts in the response have no sum. -/
  only : (∃ m, outcome = .ok m) ∨ (∃ failure, outcome = .error (.vendorCall p.name failure)) ∨
    (∃ failure, outcome = .error (.foreign failure)) ∨
    (∃ fault, outcome = .error (.invalidReply fault)) ∨
    service.refusal = none ∧ p.vendor.ReplyOverflows service.response ∧ outcome = misuse .range

/-- What is done for a payload, and what it comes to. -/
structure Serves (p : Provider) (service : Service) (d : Dispatch) (run : Activity Message) :
    Prop where
  unconnected : p.connection = none →
    run = ⟨[], .error (.configuration (.noClient p.name.plain))⟩
  /-- A record that cannot be put on file keeps even the request from being sent. -/
  jammed : p.connection.isSome = true → p.Jammed false d → run = ⟨[], misuse .content⟩
  /-- One request is sent, and nothing comes before it but its record. -/
  sent : p.connection.isSome = true → ¬p.Jammed false d → ∃ r request, p.Summarizes false d r ∧
    p.vendor.request false d.model d.payload (Options.resolve p.settings d.options) =
      .ok request ∧
    run.actions = (written p.log r).map .recorded ++ [.requested request]
  received : p.connection.isSome = true → ¬p.Jammed false d → p.Receives service run.outcome
  /-- A report of a refusal has the provider's name and the words of the service. -/
  told : ∀ name failure, run.outcome = .error (.vendorCall name failure) →
    (Fault.vendorCall name failure).message? = some (p.name.plain ++ ": " ++ failure.text)

variable {p : Provider} {service : Service} {failure : VendorFailure} {d : Dispatch} {talk : Talk}

/-! ## What is received -/

/-- Every reply that is read is annotated, and in nothing but its metadata. -/
theorem annotated_annotate {read : Message}
    (hread : p.vendor.readReply service.response = .ok read) :
    p.Annotated service read
      (read.annotate [("provider", p.name), ("latency_ms", .float service.latency)]) := by
  rcases (Vendor.replyShape_of_readReply hread).metadata with ⟨reason, hmetadata⟩
  refine ⟨_, reason, hmetadata, ?_⟩
  rw [Message.annotate, hmetadata]
  rfl

/-- An annotated message is determined by what was read, for there is one latency. -/
theorem Annotated.eq {read m other : Message} (h : p.Annotated service read m)
    (hother : p.Annotated service read other) : m = other := by
  rcases h with ⟨model, reason, hmetadata, rfl⟩
  rcases hother with ⟨_, _, hagain, rfl⟩
  cases hmetadata.symm.trans hagain
  rfl

/-- A failure of the vendor's own kind is wrapped. -/
theorem receives_of_own (hrefusal : service.refusal = some failure)
    (howned : p.vendor.owns failure.kind = true) :
    p.Receives service (.error (.vendorCall p.name failure)) where
  own name other := by
    simp only [Except.error.injEq, Fault.vendorCall.injEq, hrefusal, Option.some.injEq]
    constructor
    · rintro ⟨rfl, rfl⟩
      exact ⟨rfl, rfl, howned⟩
    · rintro ⟨rfl, rfl, -⟩
      exact ⟨rfl, rfl⟩
  foreign other := by
    simp only [Except.error.injEq, reduceCtorEq, hrefusal, Option.some.injEq, false_iff, not_and]
    rintro rfl
    simp [howned]
  rejected fault := by simp [hrefusal]
  answered m := by simp [hrefusal]
  only := .inr (.inl ⟨failure, rfl⟩)

/-- Any other failure comes through as it is. -/
theorem receives_of_foreign (hrefusal : service.refusal = some failure)
    (hforeign : p.vendor.owns failure.kind = false) :
    p.Receives service (.error (.foreign failure)) where
  own name other := by
    simp only [Except.error.injEq, reduceCtorEq, hrefusal, Option.some.injEq, false_iff, not_and]
    rintro - rfl
    simp [hforeign]
  foreign other := by
    simp only [Except.error.injEq, Fault.foreign.injEq, hrefusal, Option.some.injEq]
    constructor
    · rintro rfl
      exact ⟨rfl, hforeign⟩
    · rintro ⟨rfl, -⟩
      rfl
  rejected fault := by simp [hrefusal]
  answered m := by simp [hrefusal]
  only := .inr (.inr (.inl ⟨failure, rfl⟩))

/-- A response that cannot be read is reported as that. -/
theorem receives_of_rejected {fault : ReplyFault} (hrefusal : service.refusal = none)
    (hrejected : p.vendor.readReply service.response = .error (.invalidReply fault)) :
    p.Receives service (.error (.invalidReply fault)) where
  own name failure := by simp [hrefusal]
  foreign failure := by simp [hrefusal]
  rejected other := by simp [hrefusal, hrejected]
  answered m := by simp [hrejected]
  only := .inr (.inr (.inr (.inl ⟨fault, rfl⟩)))

/-- Counts that have no sum are reported as that. -/
theorem receives_of_exceeded (hrefusal : service.refusal = none)
    (hoverflows : p.vendor.ReplyOverflows service.response)
    (hexceeded : p.vendor.readReply service.response = misuse .range) :
    p.Receives service (misuse .range) where
  own name failure := by simp [misuse, hrefusal]
  foreign failure := by simp [misuse, hrefusal]
  rejected fault := by simp [misuse, hexceeded]
  answered m := by simp [misuse, hexceeded]
  only := .inr (.inr (.inr (.inr ⟨hrefusal, hoverflows, rfl⟩)))

/-- A response that is read comes back annotated. -/
theorem receives_of_read {read m : Message} (hrefusal : service.refusal = none)
    (hread : p.vendor.readReply service.response = .ok read) (hm : p.Annotated service read m) :
    p.Receives service (.ok m) where
  own name failure := by simp [hrefusal]
  foreign failure := by simp [hrefusal]
  rejected fault := by simp [hread]
  answered other := by
    constructor
    · rintro ⟨⟩
      exact ⟨hrefusal, read, hread, hm⟩
    · rintro ⟨-, again, hagain, hother⟩
      cases hread.symm.trans hagain
      rw [hm.eq hother]
  only := .inl ⟨m, rfl⟩

/-- Whatever the service does, it is told what comes of it. -/
theorem receives_received (p : Provider) (service : Service) :
    p.Receives service (p.received service) := by
  rcases hrefusal : service.refusal with _ | failure
  · have hreceived : p.received service =
        (p.vendor.readReply service.response).map
          fun m => m.annotate [("provider", p.name), ("latency_ms", .float service.latency)] := by
      rw [received, answer, hrefusal]
      rfl
    rw [hreceived]
    rcases p.vendor.readReply_cases service.response with
      ⟨m, hread⟩ | ⟨fault, hrejected⟩ | ⟨hoverflows, hexceeded⟩
    · rw [hread]
      exact receives_of_read hrefusal hread (annotated_annotate hread)
    · rw [hrejected]
      exact receives_of_rejected hrefusal hrejected
    · rw [hexceeded]
      exact receives_of_exceeded hrefusal hoverflows hexceeded
  · have hreceived : p.received service = .error (p.report failure) := by
      rw [received, answer, hrefusal]
      rfl
    rw [hreceived, report]
    cases howned : p.vendor.owns failure.kind with
    | true => exact receives_of_own hrefusal howned
    | false => exact receives_of_foreign hrefusal howned

/-! ## What is done -/

/-- Options of the documented kinds always make a request. -/
theorem exists_request (streaming : Bool) (h : Options.Documented d.options) :
    ∃ request, p.vendor.request streaming d.model d.payload
      (Options.resolve p.settings d.options) = .ok request := by
  have hstop : (Options.resolve p.settings d.options).value "stop" = d.options.value "stop" :=
    Options.value_resolve p.settings d.options .stop
  rcases p.vendor.request_cases d.model d.payload (Options.resolve p.settings d.options) with
    ⟨stop, -, hmade⟩ | ⟨fault, hformless, -⟩
  · exact ⟨_, hmade streaming⟩
  rw [hstop] at hformless
  by_cases hchat : ∃ label, p.vendor = .openAI label
  · rcases hchat with ⟨label, hlabel⟩
    exact absurd (.stop hlabel) (hformless _)
  have hother : ∀ label, p.vendor ≠ .openAI label := fun label hlabel => hchat ⟨label, hlabel⟩
  rcases h.stop with hnull | ⟨s, htext⟩ | ⟨items, hlist⟩
  · rw [hnull] at hformless
    exact absurd .nothing (hformless _)
  · rw [htext] at hformless
    exact absurd (.sequences hother .text) (hformless _)
  · rw [hlist] at hformless
    exact absurd (.sequences hother (.several (by simp) rfl)) (hformless _)

/-- Documented options are no parameters. -/
theorem requireFree_of_documented {taken : List String} {given : Fields}
    (h : Options.Documented given)
    (htaken : ∀ name ∈ taken,
      name ∈ ["self", "model", "payload", "messages", "system_prompt", "tools"]) :
    Options.requireFree taken given = .ok () := by
  have hnone : (taken.any fun name => (given.lookup name).isSome) = false := by
    rw [List.any_eq_false]
    intro name hname
    rw [h.free name (htaken name hname)]
    simp
  rw [Options.requireFree, hnone]
  rfl

/-- When all that can be in the way of a request is out of it, the request is sent, and its reply
received. -/
theorem complete_of_sent {records : List RequestRecord} {request : Request}
    (hfree : Options.requireFree Options.payloadCall d.options = .ok ())
    (hsend : p.send service false d.model d.payload d.options =
      .noting records (p.ask service false d.model d.payload d.options))
    (hrequest : p.vendor.request false d.model d.payload
      (Options.resolve p.settings d.options) = .ok request) :
    p.complete service d.model d.payload d.options =
      ⟨records.map .recorded ++ [.requested request], p.received service⟩ := by
  rw [complete, Activity.ofOutcome_bind_of_ok hfree, hsend, Activity.noting_bind,
    ask_of_request hrequest, received]
  rcases p.answer service with fault | u
  · rfl
  · rcases p.vendor.readReply service.response with fault | m <;> rfl

/-- A payload is sent once, and its response comes back in one of these ways. -/
theorem serves_complete (hlisted : d.payload.Listed) (hdocumented : Options.Documented d.options) :
    p.Serves service d (p.complete service d.model d.payload d.options) := by
  have hfree : Options.requireFree Options.payloadCall d.options = .ok () :=
    requireFree_of_documented hdocumented (by simp [Options.payloadCall])
  have hcount := requireCountable_of_listed hlisted
  rcases exists_summary p false hcount with ⟨r, hr⟩
  rcases exists_request (p := p) false hdocumented with ⟨request, hrequest⟩
  -- nothing but the connection and the log can keep the request from being sent
  have hunconnected : p.connection = none → p.complete service d.model d.payload d.options =
      ⟨[], .error (.configuration (.noClient p.name.plain))⟩ := by
    intro hnone
    rw [complete, Activity.ofOutcome_bind_of_ok hfree, send_of_unconnected hnone]
    rfl
  have hjammed : p.connection.isSome = true → p.Jammed false d →
      p.complete service d.model d.payload d.options = ⟨[], misuse .content⟩ := by
    intro hconnected hjammed
    rw [complete, Activity.ofOutcome_bind_of_ok hfree,
      send_of_unrecorded hconnected hcount (recordOf_of_jammed hjammed)]
    rfl
  have hsent : p.connection.isSome = true → ¬p.Jammed false d →
      p.complete service d.model d.payload d.options =
        ⟨(written p.log r).map .recorded ++ [.requested request], p.received service⟩ := by
    intro hconnected hfine
    rcases hr.recordOf_of_unjammed hfine with ⟨record, hrecord, hwritten⟩
    rw [← hwritten]
    exact complete_of_sent hfree (send_of_recorded hconnected hcount hrecord) hrequest
  exact
    { unconnected := hunconnected
      jammed := hjammed
      sent := fun hconnected hfine =>
        ⟨r, request, hr, hrequest, by rw [hsent hconnected hfine]⟩
      received := by
        intro hconnected hfine
        rw [hsent hconnected hfine]
        exact receives_received p service
      told := by
        intro name failure h
        by_cases hconnection : p.connection = none
        · rw [hunconnected hconnection] at h
          cases h
        have hconnected := Option.isSome_iff_ne_none.2 hconnection
        by_cases hfine : p.Jammed false d
        · rw [hjammed hconnected hfine] at h
          cases h
        rw [hsent hconnected hfine] at h
        rcases ((receives_received p service).own name failure).1 h with ⟨rfl, -⟩
        rfl }

/-- A talk whose options have names of their own is settled as it is. -/
theorem settle_of_documented (h : Options.Documented talk.options) :
    talk.settle [] = .ok ⟨talk.model, talk.messages, talk.systemPrompt.getD .null,
      talk.tools.getD .null, talk.options⟩ := by
  have hfree : Options.requireFree (Options.conversationCall ++ []) talk.options = .ok () :=
    requireFree_of_documented h (by simp [Options.conversationCall])
  have hextract (name : String) (direct : Option Value)
      (hname : talk.options.lookup name = none) :
      Options.extract name direct talk.options = .ok (direct.getD .null, talk.options) := by
    unfold Options.extract
    rw [hname]
    cases direct <;> rfl
  rw [Talk.settle, Outcome.bind_of_ok hfree,
    Outcome.bind_of_ok (hextract _ _ (h.free "system_prompt" (by simp)))]
  dsimp only
  rw [Outcome.bind_of_ok (hextract _ _ (h.free "tools" (by simp)))]
  rfl

/-- A chat is adapting the conversation and completing the payload. -/
theorem chat_of_documented (h : Options.Documented talk.options) :
    p.chat service talk = (do
      let payload ← .ofOutcome
        (p.adapt talk.messages (talk.systemPrompt.getD .null) (talk.tools.getD .null))
      p.complete service talk.model payload talk.options) := by
  rw [chat, Activity.ofOutcome_bind_of_ok (settle_of_documented h)]

/-- Whatever is called for with whatever options: a conversation that cannot be carried to the
vendor comes to that fault before anything is looked at or done, a payload goes no further than to
the missing connection, and any other is sent once, and comes to what the service makes of it. -/
theorem serves_of_calls (p : Provider) (service : Service) :
    (∀ d : Dispatch, d.payload.Listed → Options.Documented d.options →
      p.Serves service d (p.complete service d.model d.payload d.options)) ∧
    ∀ talk : Talk, Options.Documented talk.options →
      (∀ fault, p.adapt talk.messages (talk.systemPrompt.getD .null) (talk.tools.getD .null) =
          .error fault →
        p.chat service talk = ⟨[], .error fault⟩) ∧
      ∀ payload, p.adapt talk.messages (talk.systemPrompt.getD .null) (talk.tools.getD .null) =
          .ok payload →
        p.Serves service ⟨talk.model, payload, talk.options⟩ (p.chat service talk) := by
  refine ⟨fun d hlisted hdocumented => serves_complete hlisted hdocumented, ?_⟩
  intro talk hdocumented
  rw [chat_of_documented hdocumented]
  constructor
  · intro fault hfault
    exact Activity.ofOutcome_bind_of_error hfault _
  · intro payload hpayload
    rw [Activity.ofOutcome_bind_of_ok hpayload]
    exact serves_complete (d := ⟨talk.model, payload, talk.options⟩)
      (Payload.listed_of_adapt hpayload) hdocumented


def salutation : Talk where
  model := .str "claude"
  messages := .list [.dict [("role", .str "user"), ("content", .str "Hi")]]

/-- A request that the vendor refuses comes back as the vendor's failure. -/
theorem serves_of_calls_refused :
    let p : Provider := { vendor := .anthropic, connection := some .handedIn }
    let service : Service := { refusal := some ⟨.anthropic, "slow down"⟩ }
    ∃ payload, p.adapt salutation.messages .null .null = .ok payload ∧
      p.Serves service ⟨salutation.model, payload, []⟩ (p.chat service salutation) ∧
      (p.chat service salutation).outcome =
        .error (.vendorCall (.str "anthropic") ⟨.anthropic, "slow down"⟩) := by
  intro p service
  have hdocumented : Options.Documented salutation.options :=
    ⟨fun name _ => rfl, .inl rfl⟩
  have hfine (d : Dispatch) : ¬p.Jammed false d := by
    rintro ⟨log, r, ⟨⟩, -⟩
  have hok : (p.adapt salutation.messages .null .null).isOk = true := by
    decide +kernel
  rcases Outcome.of_isOk hok with ⟨payload, hpayload⟩
  have hserves := ((serves_of_calls p service).2 salutation hdocumented).2 payload hpayload
  exact ⟨payload, hpayload, hserves, ((hserves.received rfl (hfine _)).own _ _).2 ⟨rfl, rfl, rfl⟩⟩

/-- A response whose counts have no sum is not read. -/
theorem readReply_of_overflows {label prompt completion : Value}
    (h : OpenAI.Overflows (reporting [greeting] prompt completion)) :
    (Vendor.openAI label).readReply (reporting [greeting] prompt completion) = misuse .range := by
  rw [Vendor.readReply, replyOf_greeting, OpenAI.usageOf_eq_range_iff.2 h]
  rfl

/-- A response with counts that have no sum is neither read nor told to be unreadable. -/
theorem exceeds_of_huge_count :
    let p : Provider := { vendor := .openAI (.str "openai"), connection := some .handedIn }
    let payload : Payload := { vendor := .str "openai", messages := .list [] }
    let service : Service :=
      { response := reporting [greeting] (.int (10 ^ 309)) (.float ⟨0x3fe0000000000000⟩) }
    (p.complete service (.str "gpt-4o") payload []).outcome = misuse .range := by
  intro p payload service
  have hhuge : (Value.int (10 ^ 309)).Huge := ⟨_, rfl, by decide +kernel⟩
  have hread : p.vendor.readReply service.response = misuse .range :=
    readReply_of_overflows ⟨rfl, .inl ⟨hhuge, rfl⟩⟩
  have hsent := @complete_of_sent p service ⟨.str "gpt-4o", payload, []⟩ [] _ rfl rfl rfl
  rw [hsent, received, hread]
  rfl

end Provider

end Parley
