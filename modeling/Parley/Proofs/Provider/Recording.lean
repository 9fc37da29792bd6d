import Parley.Proofs.Provider.Calls
import Parley.Proofs.Value.Changes

/-!
# The request log and the calls

A provider may keep a log of the requests it sends. This file says that the log makes no difference
to a call whose record can be put on file: whatever log there is, or none, the call does the same
and comes to the same. It also says what the log tells about a call: that it was made, how much was
sent, and nothing of what. A record that cannot be put on file keeps the request from being sent.

* `RequestRecord.Unfit`: the records that cannot be put on file;
* `Summarizes`, `SameOutline`: what a record says of what is sent, and what has the same record;
* `Keeps`, `Blocks`: what a log keeps of a call, and what it keeps from being sent;
* `keeps_of_calls`: what is kept of all calls.
-/

namespace Parley

/-- A record that cannot be put on file: a number in it has too many digits, or a zero character
would stand in the name of its file. -/
def RequestRecord.Unfit (r : RequestRecord) : Prop :=
  (∃ v ∈ [r.provider, r.kind, r.model, .int r.messages, r.temperature, r.maxTokens],
    v.printable = false) ∨
  '\x00' ∈ (r.provider.plain ++ "-" ++ r.kind.plain).toList

/-- A record is written unless it is unfit. -/
theorem RequestRecord.isWritable_eq_false_iff {r : RequestRecord} :
    r.isWritable = false ↔ r.Unfit := by
  have hbool (b : Bool) : (Value.bool b).printable = true := rfl
  have hprintable : r.isPrintable = false ↔
      ∃ v ∈ [r.provider, r.kind, r.model, .int r.messages, r.temperature, r.maxTokens],
        v.printable = false := by
    rw [← not_iff_not, Bool.not_eq_false, isPrintable, Value.printable_dict]
    simp [toFields, hbool]
  rw [isWritable, Bool.and_eq_false_iff, hprintable, Unfit, Bool.not_eq_false_eq_eq_true,
    isUnnameable, fileStem, List.contains_iff_mem]

namespace Provider

def keeping (p : Provider) (log : Option RequestLog) : Provider :=
  { p with log }

/-- What a record says of what is sent. -/
structure Summarizes (p : Provider) (streaming : Bool) (d : Dispatch) (r : RequestRecord) :
    Prop where
  provider : r.provider = p.name
  kind : r.kind = .str (if streaming then "stream" else "chat")
  model : r.model = d.model
  messages : d.payload.messages.size = .ok r.messages
  hasSystem : r.hasSystem = !d.payload.system.isNull
  hasTools : r.hasTools = d.payload.tools.truthy
  temperature : r.temperature = Parameter.temperature.chosen p.settings d.options
  maxTokens : r.maxTokens = Parameter.tokenLimit.chosen p.settings d.options

/-- What is sent twice to one model, in as many turns, both times or neither time with a system
instruction and with tools, at one temperature and with one token limit. -/
structure SameOutline (p : Provider) (d e : Dispatch) : Prop where
  model : e.model = d.model
  messages : e.payload.messages.size = d.payload.messages.size
  system : e.payload.system.isNull = d.payload.system.isNull
  tools : e.payload.tools.truthy = d.payload.tools.truthy
  temperature : Parameter.temperature.chosen p.settings e.options =
    Parameter.temperature.chosen p.settings d.options
  tokenLimit : Parameter.tokenLimit.chosen p.settings e.options =
    Parameter.tokenLimit.chosen p.settings d.options

def written (log : Option RequestLog) (r : RequestRecord) : List RequestRecord :=
  if log.any fun l => l.accepts r then [r] else []

/-- What the file of a record says of what is sent: how much it is, and nothing of its texts. -/
def outline (p : Provider) (streaming : Bool) (d : Dispatch) (messages : Nat) : Value :=
  .dict [("provider", p.name),
    ("kind", .str (if streaming then "stream" else "chat")),
    ("model", d.model),
    ("messages_count", .int messages),
    ("has_system", .bool !d.payload.system.isNull),
    ("has_tools", .bool d.payload.tools.truthy),
    ("temperature", Parameter.temperature.chosen p.settings d.options),
    ("max_tokens", Parameter.tokenLimit.chosen p.settings d.options)]

/-- The provider records its requests, and the record of this one cannot be put on file. -/
def Jammed (p : Provider) (streaming : Bool) (d : Dispatch) : Prop :=
  ∃ log r, p.log = some log ∧ log.enabled = true ∧ p.Summarizes streaming d r ∧ r.Unfit

variable {p : Provider} {service : Service} {streaming : Bool} {d e : Dispatch}
  {r : RequestRecord} {log : Option RequestLog}

/-! ## Records -/

/-- What is sent has a summary if it can be counted. -/
theorem exists_summary (p : Provider) (streaming : Bool)
    (hcount : requireCountable d.payload = .ok ()) : ∃ r, p.Summarizes streaming d r := by
  rcases Outcome.of_bind_eq_ok hcount with ⟨n, hn, -⟩
  exact ⟨⟨p.name, _, d.model, n, _, _, _, _⟩, rfl, rfl, rfl, hn, rfl, rfl, rfl, rfl⟩

/-- What has the same outline has the same summary. -/
theorem Summarizes.of_sameOutline (h : p.Summarizes streaming d r) (hsame : p.SameOutline d e) :
    p.Summarizes streaming e r where
  provider := h.provider
  kind := h.kind
  model := h.model.trans hsame.model.symm
  messages := hsame.messages.trans h.messages
  hasSystem := by rw [h.hasSystem, hsame.system]
  hasTools := h.hasTools.trans hsame.tools.symm
  temperature := h.temperature.trans hsame.temperature.symm
  maxTokens := h.maxTokens.trans hsame.tokenLimit.symm

/-- There is one summary of what is sent. -/
theorem Summarizes.eq {s : RequestRecord} (h : p.Summarizes streaming d r)
    (hother : p.Summarizes streaming d s) : s = r := by
  have hmessages := hother.messages.symm.trans h.messages
  cases r
  cases s
  simp only [RequestRecord.mk.injEq]
  exact ⟨hother.provider.trans h.provider.symm, hother.kind.trans h.kind.symm,
    hother.model.trans h.model.symm, Except.ok.inj hmessages,
    hother.hasSystem.trans h.hasSystem.symm, hother.hasTools.trans h.hasTools.symm,
    hother.temperature.trans h.temperature.symm, hother.maxTokens.trans h.maxTokens.symm⟩

/-- The record that is made of what is sent is its summary. -/
theorem Summarizes.ofRequest (h : p.Summarizes streaming d r) :
    RequestRecord.ofRequest p.name (.str (if streaming then "stream" else "chat")) d.model d.payload
      (.dict (Options.resolve p.settings d.options)) = .ok r := by
  have htemperature : (Options.resolve p.settings d.options).value "temperature" = r.temperature :=
    (Options.value_resolve p.settings d.options .temperature).trans h.temperature.symm
  have hlimit : (Options.resolve p.settings d.options).value "max_tokens" = r.maxTokens :=
    (Options.value_resolve p.settings d.options .tokenLimit).trans h.maxTokens.symm
  have hget (name : String) : (Value.dict (Options.resolve p.settings d.options)).get name =
      .ok ((Options.resolve p.settings d.options).value name) := rfl
  rw [RequestRecord.ofRequest, Outcome.bind_of_ok h.messages, hget, hget, htemperature, hlimit,
    ← h.provider, ← h.kind, ← h.model, ← h.hasSystem, ← h.hasTools]
  rfl

/-- The file of a summary says what is sent, by name and indented. -/
theorem Summarizes.text (h : p.Summarizes streaming d r) :
    r.text = Json.display (p.outline streaming d r.messages) := by
  rw [RequestRecord.text, RequestRecord.toFields, h.provider, h.kind, h.model, h.hasSystem,
    h.hasTools, h.temperature, h.maxTokens, outline]

/-- Of what is sent the log keeps what it can write. -/
theorem Summarizes.recordOf_of_unjammed (h : p.Summarizes streaming d r)
    (hfree : ¬p.Jammed streaming d) :
    ∃ record, p.recordOf (if streaming then "stream" else "chat") d.model d.payload
      (Options.resolve p.settings d.options) = .ok record ∧ record.toList = written p.log r := by
  rw [recordOf]
  rcases hlog : p.log with _ | log
  · exact ⟨none, rfl, rfl⟩
  cases henabled : log.enabled with
  | false =>
    refine ⟨none, RequestLog.keep_of_disabled henabled .., ?_⟩
    simp [written, RequestLog.accepts, RequestLog.hasDirectory, henabled]
  | true =>
    have hwritable : r.isWritable = true := by
      by_contra hunfit
      have hunfit := RequestRecord.isWritable_eq_false_iff.1 (by simpa using hunfit)
      exact hfree ⟨log, r, hlog, henabled, h, hunfit⟩
    refine ⟨if log.accepts r then some r else none, ?_, ?_⟩
    · simp only [RequestLog.keep, henabled, if_true]
      rw [Outcome.bind_of_ok h.ofRequest, hwritable]
      rfl
    · simp only [written, Option.any_some]
      split <;> rfl

/-- A record that cannot be put on file ends the call. -/
theorem recordOf_of_jammed (hjammed : p.Jammed streaming d) :
    p.recordOf (if streaming then "stream" else "chat") d.model d.payload
      (Options.resolve p.settings d.options) = misuse .content := by
  rcases hjammed with ⟨log, r, hlog, henabled, h, hunfit⟩
  simp only [recordOf, hlog, RequestLog.keep, henabled, if_true]
  rw [Outcome.bind_of_ok h.ofRequest, RequestRecord.isWritable_eq_false_iff.2 hunfit]
  rfl

/-! ## The steps of a call -/

/-- The log has no part in handing out chunks. -/
theorem handOut_keeping (log : Option RequestLog) (breakdown : Option VendorFailure)
    (limit : Option Nat) (events : List Value) :
    (p.keeping log).handOut breakdown limit events = p.handOut breakdown limit events := by
  induction events generalizing limit with
  | nil => rfl
  | cons event rest ih =>
    simp only [handOut, ih]
    rfl

/-- What comes after the request has nothing to do with the log. -/
theorem follow_keeping (log : Option RequestLog) (call : Call) :
    call.follow (p.keeping log) service = call.follow p service := by
  cases call with
  | stream d limit => simp only [Call.follow, Call.follow.chunks, handOut_keeping]
  | chatStream talk limit => simp only [Call.follow, Call.follow.chunks, handOut_keeping]
  | _ => rfl

theorem ready_keeping (log : Option RequestLog) (call : Call) :
    call.ready (p.keeping log) = call.ready p := by
  cases call <;> rfl

/-- Of what is sent, a log that cannot fail keeps what it can write, and makes no other
difference. -/
theorem send_keeping (hconnected : p.connection.isSome = true)
    (hcount : requireCountable d.payload = .ok ()) (h : p.Summarizes streaming d r)
    (hfree : ¬(p.keeping log).Jammed streaming d) :
    (p.keeping log).send service streaming d.model d.payload d.options =
      .noting (written log r)
        ((p.keeping none).send service streaming d.model d.payload d.options) := by
  have hsummary : (p.keeping log).Summarizes streaming d r := { h with }
  rcases hsummary.recordOf_of_unjammed hfree with ⟨record, hrecord, hwritten⟩
  -- with a log or without one, the request itself is the same
  rw [send_of_recorded (p := p.keeping log) hconnected hcount hrecord, hwritten,
    send_of_recorded (p := p.keeping none) hconnected hcount rfl]
  rfl

/-- What cannot be sent at all is not recorded either. -/
theorem send_keeping_of_unsent (h : p.connection = none ∨ requireCountable d.payload ≠ .ok ())
    (log : Option RequestLog) :
    (p.keeping log).send service streaming d.model d.payload d.options =
      (p.keeping none).send service streaming d.model d.payload d.options := by
  rcases hconnection : p.connection with _ | connection
  · rw [send_of_unconnected (p := p.keeping log) hconnection,
      send_of_unconnected (p := p.keeping none) hconnection]
    rfl
  have hconnected : p.connection.isSome = true := by simp [hconnection]
  rcases hcount : requireCountable d.payload with fault | u
  · rw [send_of_uncountable (p := p.keeping log) hconnected hcount,
      send_of_uncountable (p := p.keeping none) hconnected hcount]
  · simp [hconnection, hcount] at h

/-! ## Calls -/

structure Keeps (p : Provider) (log : Option RequestLog) (call : Call)
    (records : List RequestRecord) : Prop where
  /-- The records come first, and all else is as it is without a log. -/
  run : ∀ service,
    call.run (p.keeping log) service = .noting records (call.run (p.keeping none) service)
  /-- Nothing is kept of a call that does not come to the point of sending. -/
  silent : call.isWanted = false ∨ p.connection = none ∨ (∃ fault, call.ready p = .error fault) →
    records = []
  /-- Of any other call one summary is kept, if the log can be written. Its file says how much is
  sent. -/
  once : ∀ d, call.isWanted = true → p.connection.isSome = true → call.ready p = .ok d →
    call.Listed → ∃ r, p.Summarizes call.isStreaming d r ∧ records = written log r ∧
      r.text = Json.display (p.outline call.isStreaming d r.messages)

/-- A call comes to the point of sending, and the record of what it sends cannot be put on file. -/
structure Blocks (p : Provider) (call : Call) (d : Dispatch) : Prop where
  wanted : call.isWanted = true
  connected : p.connection.isSome = true
  ready : call.ready p = .ok d
  countable : requireCountable d.payload = .ok ()
  jammed : p.Jammed call.isStreaming d

/-- Calls of one kind that send much the same, however different the texts are. -/
structure Alike (p : Provider) (call other : Call) : Prop where
  streaming : other.isStreaming = call.isStreaming
  wanted : other.isWanted = call.isWanted
  listed : call.Listed
  otherListed : other.Listed
  outline : ∃ d e, call.ready p = .ok d ∧ other.ready p = .ok e ∧ p.SameOutline d e

/-- A call that is ready keeps what sending keeps. -/
theorem run_keeping_of_ready {call : Call} {records : List RequestRecord}
    (hready : call.ready p = .ok d) (hwanted : call.isWanted = true)
    (hsend : ∀ service,
      (p.keeping log).send service call.isStreaming d.model d.payload d.options =
        .noting records
          ((p.keeping none).send service call.isStreaming d.model d.payload d.options))
    (service : Service) :
    call.run (p.keeping log) service = .noting records (call.run (p.keeping none) service) := by
  rw [Call.run_of_ready hwanted ((ready_keeping log call).trans hready),
    Call.run_of_ready hwanted ((ready_keeping none call).trans hready), hsend,
    Activity.noting_bind, follow_keeping, follow_keeping]

/-- Nothing is kept of a call that nobody waits for. -/
theorem keeps_of_unwanted {call : Call} (h : call.isWanted = false) : p.Keeps log call [] where
  run service := by
    rw [Call.run_of_unwanted h, Call.run_of_unwanted h]
    rfl
  silent _ := rfl
  once d hwanted := by simp [h] at hwanted

/-- Nothing is kept of a call that cannot be made ready. -/
theorem keeps_of_unready {call : Call} {fault : Fault} (hwanted : call.isWanted = true)
    (h : call.ready p = .error fault) : p.Keeps log call [] where
  run service := by
    rw [Call.run_of_unready hwanted ((ready_keeping log call).trans h),
      Call.run_of_unready hwanted ((ready_keeping none call).trans h)]
    rfl
  silent _ := rfl
  once d _ _ hready := by simp [h] at hready

/-- Nothing is kept of a call that cannot be sent. -/
theorem keeps_of_unsent {call : Call} (hwanted : call.isWanted = true)
    (hready : call.ready p = .ok d)
    (h : p.connection = none ∨ requireCountable d.payload ≠ .ok ()) : p.Keeps log call [] where
  run := run_keeping_of_ready hready hwanted fun _ => send_keeping_of_unsent h log
  silent _ := rfl
  once e _ hconnected he hlisted := by
    have hcount := requireCountable_of_listed (Call.listed_of_ready hlisted he)
    cases hready.symm.trans he
    rcases h with hnone | hcannot
    · simp [hnone] at hconnected
    · exact absurd hcount hcannot

/-- Of a call that is sent the summary is kept. -/
theorem keeps_of_sent {call : Call} (hwanted : call.isWanted = true)
    (hready : call.ready p = .ok d) (hconnected : p.connection.isSome = true)
    (hcount : requireCountable d.payload = .ok ()) (h : p.Summarizes call.isStreaming d r)
    (hfree : ¬(p.keeping log).Jammed call.isStreaming d) : p.Keeps log call (written log r) where
  run := run_keeping_of_ready hready hwanted fun _ => send_keeping hconnected hcount h hfree
  silent hsilent := by
    rcases hsilent with hno | hno | ⟨fault, hno⟩
    · simp [hwanted] at hno
    · simp [hno] at hconnected
    · simp [hready] at hno
  once e _ _ he _ := by
    cases hready.symm.trans he
    exact ⟨r, h, rfl, h.text⟩

theorem ready_keeping_eq_ok_iff {call : Call} :
    call.ready (p.keeping log) = .ok d ↔ call.ready p = .ok d := by
  rw [ready_keeping]

/-- Every call that is not blocked is kept in some way. -/
theorem exists_keeps {call : Call} (hfree : ∀ d, ¬(p.keeping log).Blocks call d) :
    ∃ records, p.Keeps log call records := by
  -- a call can come to an end at each step up to sending, and is not recorded if it does
  cases hwanted : call.isWanted with
  | false => exact ⟨[], keeps_of_unwanted hwanted⟩
  | true =>
    rcases hready : call.ready p with fault | d
    · exact ⟨[], keeps_of_unready hwanted hready⟩
    by_cases hunsent : p.connection = none ∨ requireCountable d.payload ≠ .ok ()
    · exact ⟨[], keeps_of_unsent hwanted hready hunsent⟩
    rcases not_or.1 hunsent with ⟨hsome, hcount⟩
    have hcount := not_not.1 hcount
    rcases exists_summary p call.isStreaming hcount with ⟨r, hr⟩
    have hconnected := Option.isSome_iff_ne_none.2 hsome
    have hsendable : ¬(p.keeping log).Jammed call.isStreaming d := fun hjammed =>
      hfree d ⟨hwanted, hconnected, ready_keeping_eq_ok_iff.2 hready, hcount, hjammed⟩
    exact ⟨written log r, keeps_of_sent hwanted hready hconnected hcount hr hsendable⟩

/-- Of a call that is blocked nothing is sent. -/
theorem run_of_blocks {call : Call} (h : p.Blocks call d) (service : Service) :
    call.run p service = ⟨[], misuse .content⟩ := by
  rw [Call.run_of_ready h.wanted h.ready,
    send_of_unrecorded h.connected h.countable (recordOf_of_jammed h.jammed)]
  rfl

/-- If a call is blocked, so is every call that is like it. -/
theorem Blocks.of_alike {call other : Call} (halike : p.Alike call other)
    (h : (p.keeping log).Blocks other e) : ∃ d, (p.keeping log).Blocks call d := by
  rcases halike.outline with ⟨d, e', hd, he', hsame⟩
  cases (ready_keeping_eq_ok_iff.1 h.ready).symm.trans he'
  have hcount := requireCountable_of_listed (Call.listed_of_ready halike.listed hd)
  rcases h.jammed with ⟨kept, r, hlog, henabled, hr, hunfit⟩
  rcases exists_summary (p.keeping log) call.isStreaming hcount with ⟨s, hs⟩
  have hagain := hs.of_sameOutline (e := e) { hsame with }
  rw [halike.streaming] at hr
  -- both summaries are one record, so neither of them can be put on file
  rw [← hagain.eq hr] at hs
  exact ⟨d, halike.wanted ▸ h.wanted, h.connected, ready_keeping_eq_ok_iff.2 hd, hcount,
    kept, r, hlog, henabled, hs, hunfit⟩

/-- What is kept of a call is kept of every call that is like it. -/
theorem Keeps.eq_of_alike {call other : Call} {records others : List RequestRecord}
    (hkeeps : p.Keeps log call records) (hothers : p.Keeps log other others)
    (halike : p.Alike call other) : others = records := by
  cases hwanted : call.isWanted with
  | false => rw [hkeeps.silent (.inl hwanted), hothers.silent (.inl (halike.wanted.trans hwanted))]
  | true =>
    -- without a connection nothing is kept of either call; with one, a summary of each
    by_cases hconnection : p.connection = none
    · rw [hkeeps.silent (.inr (.inl hconnection)), hothers.silent (.inr (.inl hconnection))]
    have hconnected := Option.isSome_iff_ne_none.2 hconnection
    rcases halike.outline with ⟨d, e, hd, he, hsame⟩
    rcases hkeeps.once d hwanted hconnected hd halike.listed with ⟨r, hr, rfl, -⟩
    rcases hothers.once e (halike.wanted.trans hwanted) hconnected he halike.otherListed with
      ⟨s, hs, rfl, -⟩
    rw [halike.streaming] at hs
    rw [(hr.of_sameOutline hsame).eq hs]

/-- Whatever log a provider has, a call does the same and comes to the same as without one, but that
a summary is written before anything else, once if the call comes to the point of sending, and not
at all if it does not. The summary is the same for calls that send much the same, whatever the texts
are. A summary that cannot be put on file keeps the request from being sent, and nothing else
does. -/
theorem keeps_of_calls (p : Provider) (log : Option RequestLog) (call : Call) :
    ((∀ d, ¬(p.keeping log).Blocks call d) → ∃ records, p.Keeps log call records ∧
      ∀ other, p.Alike call other → p.Keeps log other records) ∧
    ∀ d, (p.keeping log).Blocks call d → ∀ service,
      call.run (p.keeping log) service = ⟨[], misuse .content⟩ := by
  refine ⟨fun hfree => ?_, fun d hblocks service => run_of_blocks hblocks service⟩
  rcases exists_keeps hfree with ⟨records, hkeeps⟩
  refine ⟨records, hkeeps, fun other halike => ?_⟩
  have hothers : ∀ e, ¬(p.keeping log).Blocks other e := by
    intro e hblocks
    rcases hblocks.of_alike halike with ⟨d, hd⟩
    exact hfree d hd
  rcases exists_keeps hothers with ⟨others, hkept⟩
  rw [← hkeeps.eq_of_alike hkept halike]
  exact hkept

def oneTurn (text : String) : Dispatch where
  model := .str "claude"
  payload :=
    { vendor := .str "anthropic"
      messages := .list [.dict [("role", .str "user"), ("content", .str text)]] }
  options := []

/-- Two calls that say different things to one model have the same record. -/
theorem keeps_of_calls_oneTurn :
    let p : Provider := { vendor := .anthropic, connection := some .handedIn }
    let record : RequestRecord := ⟨.str "anthropic", .str "chat", .str "claude", 1, false, false,
      .float (.ofScientific false 7 (-1)), .int 1024⟩
    p.Keeps (some {}) (.complete (oneTurn "one thing")) [record] ∧
      p.Keeps (some {}) (.complete (oneTurn "another")) [record] := by
  intro p record
  have hlisted (text : String) : (Call.complete (oneTurn text)).Listed := ⟨⟨_, rfl⟩, .inl rfl⟩
  have haccepts : RequestLog.accepts {} record = true := by decide
  have hwritten : written (some {}) record = [record] := by
    rw [written, Option.any_some, if_pos haccepts]
  have hsummary : p.Summarizes false (oneTurn "one thing") record :=
    ⟨rfl, rfl, rfl, rfl, rfl, rfl, rfl, rfl⟩
  have hfree : ∀ d, ¬(p.keeping (some {})).Blocks (.complete (oneTurn "one thing")) d := by
    rintro d hblocks
    cases hblocks.ready
    rcases hblocks.jammed with ⟨-, r, -, -, hr, hunfit⟩
    rw [Summarizes.eq (p := p) hsummary { hr with }] at hunfit
    have hwritable : record.isWritable = true := by decide
    rw [RequestRecord.isWritable_eq_false_iff.2 hunfit] at hwritable
    cases hwritable
  rcases (keeps_of_calls p (some {}) (.complete (oneTurn "one thing"))).1 hfree with
    ⟨records, hkeeps, halike⟩
  rcases hkeeps.once _ rfl rfl rfl (hlisted _) with ⟨r, hr, rfl, -⟩
  cases hr.eq hsummary
  rw [hwritten] at hkeeps halike
  refine ⟨hkeeps, halike _ ⟨rfl, rfl, hlisted _, hlisted _, _, _, rfl, rfl, ?_⟩⟩
  exact ⟨rfl, rfl, rfl, rfl, rfl, rfl⟩

/-- A token limit with too many digits keeps a call from being sent if it is recorded, and only
then. -/
theorem blocks_of_long_limit :
    let p : Provider := { vendor := .anthropic, connection := some .handedIn }
    let d : Dispatch := { oneTurn "Hi" with options := [("max_tokens", .int Json.firstLong)] }
    let service : Service := { refusal := some ⟨.anthropic, "slow down"⟩ }
    (Call.complete d).run (p.keeping (some {})) service = ⟨[], misuse .content⟩ ∧
      ((Call.complete d).run (p.keeping none) service).outcome =
        .error (.vendorCall (.str "anthropic") ⟨.anthropic, "slow down"⟩) := by
  intro p d service
  have hlong : (Value.int Json.firstLong).printable = false := Json.isShort_firstLong
  have hsummary : (p.keeping (some {})).Summarizes false d ⟨.str "anthropic", .str "chat",
      .str "claude", 1, false, false, .float (.ofScientific false 7 (-1)),
      .int Json.firstLong⟩ :=
    ⟨rfl, rfl, rfl, rfl, rfl, rfl, rfl, rfl⟩
  have hblocks : (p.keeping (some {})).Blocks (.complete d) d :=
    ⟨rfl, rfl, rfl, rfl, {}, _, rfl, rfl, hsummary, .inl ⟨_, by simp, hlong⟩⟩
  exact ⟨run_of_blocks hblocks service, rfl⟩

end Provider

end Parley
