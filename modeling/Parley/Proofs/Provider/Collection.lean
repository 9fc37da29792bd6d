import Parley.Proofs.Provider.Lifecycle
import Parley.Proofs.Stream.FirstReply
import Parley.Proofs.Stream.Malformed
import Parley.Proofs.Stream.OpenAIAgreement
import Parley.Provider.Complete
import Parley.Stream.Collect

/-!
# What is collected from a streamed call

A consumer of a streamed call may collect what it hands out into one message. This file says for
every vendor that the message is the one that following the events gives, and what becomes of the
token counts of a chat completion: those that stand in an event with a choice are collected, and
those that stand alone after the finish reason are not even read.

* `drainFrom_of_follows`, `collected_of_follow`: collecting a streamed call is following its events;
* `HasChoice`, `OnlyReports`: the events of a chat completion;
* `handsOn_of_choices`: what the events of the choices hand on;
* `events_of_choices`, `collected_of_choices`: which events are read, and what is collected of them;
* `usage_of_collected`: the token counts of the collected message and of the complete reply.
-/

namespace Parley

open Parley.Stream

/-! ## Collecting a call -/

namespace Activity

/-- A chunk as its consumer meets it, null if there is none. -/
def met (chunk : Option Message) : Value :=
  (chunk.map Message.toValue).getD .null

def handedOut (run : Activity Unit) : List Value :=
  run.chunks.map met

/-- The message that a consumer collects from what a call hands out, all of which it wants. A chunk
that cannot be taken in ends it before the call can fail. -/
def collected (run : Activity Unit) : Outcome Message :=
  let drained := drain { chunks := run.handedOut }
  match drained.fault with
  | some fault => .error fault
  | none => do
    run.outcome
    drained.accumulator.result

end Activity

section Follow

variable {vendor : Vendor} {event : Value} {events rest : List Value} {chunk : Option Message}

/-- What is handed out of events by the time the stream ends, as its consumer meets it. -/
def handed (vendor : Vendor) (events : List Value) : List Value :=
  ((vendor.upToEnd events).filterMap vendor.chunkOf?).map Activity.met

/-- An event after which the stream goes on hands out its chunk, and so do those that follow. -/
theorem handed_of_goesOn (h : vendor.goesOn event = true)
    (hchunk : vendor.chunkOf? event = some chunk) :
    handed vendor (event :: rest) = Activity.met chunk :: handed vendor rest := by
  rw [handed, Vendor.upToEnd_of_goesOn h, List.filterMap_cons_some hchunk, List.map_cons, handed]

/-- An event that ends the stream hands out the last chunk. -/
theorem handed_of_stops (h : vendor.goesOn event = false)
    (hchunk : vendor.chunkOf? event = some chunk) :
    handed vendor (event :: rest) = [Activity.met chunk] := by
  rw [handed, Vendor.upToEnd_of_stops h, List.filterMap_cons_some hchunk, List.filterMap_nil,
    List.map_singleton]

/-- What an event is read as tells whether the stream ends and what is handed out. -/
theorem ends_of_reading {reading : Reading} (h : vendor.readEvent event = .ok reading) :
    vendor.ends event = Provider.completes reading.chunk? ∧
      vendor.chunkOf? event = some reading.chunk? := by
  constructor
  · rw [Vendor.ends, Outcome.bind_of_ok h]
  · rw [Vendor.chunkOf?, h]

/-- The stream goes on after an event that says nothing. -/
theorem goesOn_of_skip {reading : Reading} (hread : vendor.readEvent event = .ok reading)
    (hnothing : reading.chunk? = none) : vendor.goesOn event = true := by
  have hends := (ends_of_reading hread).1
  rw [hnothing] at hends
  exact Vendor.goesOn_iff.2 hends

/-- A stream goes on after a chunk exactly if its parcel is not the end. -/
theorem goesOn_of_parcel {parcel : Parcel}
    (hread : vendor.readEvent event = .ok (.chunk parcel.toMessage)) :
    vendor.goesOn event = !parcel.complete := by
  have hends : vendor.ends event = .ok parcel.complete :=
    (ends_of_reading hread).1.trans parcel.isComplete_toMessage
  rw [Vendor.goesOn, hends]
  cases parcel.complete <;> rfl

/-- It goes on after a parcel that is not complete. -/
theorem upToEnd_of_parcel {parcel : Parcel}
    (hread : vendor.readEvent event = .ok (.chunk parcel.toMessage))
    (hgoes : parcel.complete = false) :
    vendor.upToEnd (event :: rest) = event :: vendor.upToEnd rest := by
  apply Vendor.upToEnd_of_goesOn
  rw [goesOn_of_parcel hread, hgoes]
  rfl

theorem upToEnd_of_last {parcel : Parcel}
    (hread : vendor.readEvent event = .ok (.chunk parcel.toMessage))
    (hends : parcel.complete = true) : vendor.upToEnd (event :: rest) = [event] := by
  apply Vendor.upToEnd_of_stops
  rw [goesOn_of_parcel hread, hends]
  rfl

/-- Draining what is handed out of events is following them. -/
theorem drainFrom_of_follows {a b : Accumulator} (consumed : Nat) (hopen : a.isComplete = false)
    (h : Follows vendor a events b) :
    ∃ total, drainFrom a consumed none (handed vendor events) = ⟨b, total, none⟩ := by
  -- the count of chunks and the accumulator grow along the events
  induction h generalizing consumed with
  | nil a => exact ⟨consumed, rfl⟩
  | skip hread hnothing _ ih =>
    -- null is handed out, which is skipped
    have hchunk := (ends_of_reading hread).2
    rw [hnothing] at hchunk
    rw [handed_of_goesOn (goesOn_of_skip hread hnothing) hchunk, drainFrom_of_open rfl hopen]
    exact ih (consumed + 1) hopen
  | @chunk a b event usage parcel rest _ hread _ _ hfed hgoes _ ih =>
    have hchunk : vendor.chunkOf? event = some (some parcel.toMessage) := (ends_of_reading hread).2
    have hfeed : feed (Activity.met (some parcel.toMessage)) a = (parcel.addTo a usage, .ok ()) :=
      feed_of_feedChunk hfed
    have hgoing := goesOn_of_parcel hread
    have hcomplete := isComplete_addTo parcel a usage
    rw [hgoes] at hgoing hcomplete
    rw [handed_of_goesOn hgoing hchunk, drainFrom_of_open hfeed hcomplete]
    exact ih (consumed + 1) hcomplete
  | @last a event usage parcel rest _ hread _ _ hfed hends =>
    have hchunk : vendor.chunkOf? event = some (some parcel.toMessage) := (ends_of_reading hread).2
    have hfeed : feed (Activity.met (some parcel.toMessage)) a = (parcel.addTo a usage, .ok ()) :=
      feed_of_feedChunk hfed
    have hstops := goesOn_of_parcel hread
    have hcomplete := isComplete_addTo parcel a usage
    rw [hends] at hstops hcomplete
    rw [handed_of_stops hstops hchunk]
    exact ⟨consumed + 1, drainFrom_of_complete hfeed hcomplete consumed []⟩

end Follow

namespace Provider

variable {p : Provider} {service : Service} {model : Value} {payload : Payload} {given : Fields}

/-- What is collected from a streamed call that does not fail is what following its events gives. -/
theorem collected_of_follow {a : Accumulator} (hasked : p.Asked model payload given none)
    (hrefusal : service.refusal = none)
    (hok : (p.stream service model payload given none).outcome = .ok ())
    (h : followEvents p.vendor .empty service.events = .ok a) :
    (p.stream service model payload given none).collected = a.result := by
  have hlife := lifecycle_of_asked hasked hrefusal
  have hopens : (p.stream service model payload given none).opens = true :=
    hlife.opens.2 ⟨hlife.asks.2 hasked, hrefusal⟩
  have hevents := hlife.events
  rw [if_pos hopens] at hevents
  -- what is handed out are the chunks of just the events up to the end
  rcases drainFrom_of_follows 0 rfl (follows_of_follow rfl h) with ⟨total, hdrain⟩
  have hdrained : drain { chunks := (p.stream service model payload given none).handedOut } =
      ⟨a, total, none⟩ := by
    rw [Activity.handedOut, hlife.chunks, hevents]
    exact hdrain
  rw [Activity.collected, hdrained, hok]
  rfl

/-- A request that can be sent and is not refused is answered with what its response is read as. -/
theorem complete_of_canSend {m : Message}
    (hfree : Options.requireFree Options.payloadCall given = .ok ())
    (hcan : p.CanSend false model payload given) (hrefusal : service.refusal = none)
    (hread : p.vendor.readReply service.response = .ok m) :
    (p.complete service model payload given).outcome =
      .ok (m.annotate [("provider", p.name), ("latency_ms", .float service.latency)]) := by
  rcases send_of_canSend hcan hrefusal with ⟨records, request, hsend⟩
  have hanswer : (p.send service false model payload given).outcome = .ok () := by
    rw [hsend]
  rw [complete, Activity.ofOutcome_bind_of_ok hfree, Activity.bind_of_ok hanswer,
    Activity.ofOutcome_bind_of_ok hread]
  rfl

end Provider

/-- Annotations leave the usage as it is. -/
theorem Message.usage_annotate (m : Message) (entries : Fields) :
    (m.annotate entries).usage = m.usage := by
  rw [Message.annotate]
  split <;> rfl

/-- The usage of a result is the one that was gathered. -/
theorem Stream.Accumulator.usage_of_result {a : Accumulator} {m : Message}
    (h : a.result = .ok m) : m.usage = a.usage := by
  rcases Outcome.of_bind_eq_ok h with ⟨text, -, hcalls⟩
  rcases Outcome.of_bind_eq_ok hcalls with ⟨calls, -, hm⟩
  cases hm
  rfl

/-! ## The events of a chat completion -/

namespace Stream.OpenAI

open Parley.OpenAI

/-- A usage entry that is read as a token report, or as none if it has no counts. -/
inductive IsReport (usage : Value) (reported : Option TokenUsage) : Prop where
  | counts {counts : TokenUsage} (reports : Reports usage counts) (counted : counts.Counted)
      (read : TokenUsage.report counts.prompt counts.completion counts.total = .ok reported) :
      IsReport usage reported

/-- An event with a choice, its finish reason and its token report. The fragments of calls in it
need no index, and their parts may be missing. -/
inductive HasChoice (event reason : Value) (reported : Option TokenUsage) : Prop where
  | choice {choice : Value} {others raws : List Value} {text : String}
      (choices : event.read "choices" = .list (choice :: others))
      (text : SaysText ((choice.read "delta").read "content") text)
      (made : ((choice.read "delta").read "tool_calls").ifNull (.list []) = .list raws)
      (arguments : ∀ raw ∈ raws, ((raw.read "function").read "arguments").IsPiece)
      (indices : ∀ raw ∈ raws, (raw.read "index").hashable = true)
      (reason : choice.read "finish_reason" = reason)
      (usage : IsReport (event.read "usage") reported)

/-- An event without a choice that reports token counts. -/
structure OnlyReports (event : Value) (usage : TokenUsage) : Prop where
  choices : (event.read "choices").truthy = false
  usage : IsReport (event.read "usage") (some usage)

variable {event reason : Value} {reported : Option TokenUsage}

/-- A report is read as what it reports. -/
theorem IsReport.usageOf_eq {raw : Value} (h : IsReport (raw.read "usage") reported) :
    usageOf raw = .ok reported := by
  rcases h with ⟨reports, -, read⟩
  exact (usageOf_of_reports reports).trans read

theorem IsReport.counted {usage : Value} (h : IsReport usage reported) :
    ∀ u ∈ reported, u.Counted := by
  rcases h with ⟨-, counted, read⟩
  rcases TokenUsage.exists_report counted.prompt counted.completion counted.total with
    ⟨other, hother, hall⟩
  cases read.symm.trans hother
  exact hall

/-- An event that shows an increment and counts has a choice. -/
theorem hasChoice_of_shows {increment : Increment} {counts : TokenUsage}
    (h : Shows event increment reason counts) (hcounted : counts.Counted)
    (hread : TokenUsage.report counts.prompt counts.completion counts.total = .ok reported) :
    HasChoice event reason reported := by
  rcases h with ⟨choices, text, made, fragments, reason, usage⟩
  refine .choice choices text made ?_ ?_ reason (.counts usage hcounted hread)
  · intro raw hraw
    rcases exists_of_mem_left fragments hraw with ⟨fragment, -, hfragment⟩
    exact Value.isPiece_of_ifNull hfragment.arguments
  · intro raw hraw
    rcases exists_of_mem_left fragments hraw with ⟨fragment, -, hfragment⟩
    rcases hfragment.index with ⟨index, -, hindex⟩
    rw [hindex]
    rfl

/-- A choice is handed on as its parcel, unless there is nothing in it. -/
theorem readEvent_of_hasChoice (label : Value) (h : HasChoice event reason reported) :
    ((Vendor.openAI label).readEvent event = .ok .nothing ∧ reason = .null ∧ reported = none) ∨
      ∃ parcel : Parcel, (Vendor.openAI label).readEvent event = .ok (.chunk parcel.toMessage) ∧
        parcel.Sound ∧ parcel.usage = reported ∧ parcel.complete = !reason.isNull := by
  rcases h with @⟨choice, others, raws, text, choices, spoken, made, arguments, indices,
    hreason, usage⟩
  have hchunk := chunkOf_of_choice choices spoken made usage.usageOf_eq
  rw [hreason, ← toMessage_choiceParcel] at hchunk
  by_cases hnothing : (text = "" && raws.isEmpty && reason.isNull && reported.isNone) = true
  · left
    rw [if_pos hnothing] at hchunk
    simp only [Bool.and_eq_true, Value.isNull_iff, Option.isNone_iff_eq_none] at hnothing
    exact ⟨congrArg Reading.ofOutcome hchunk, hnothing.1.2, hnothing.2⟩
  · right
    rw [if_neg hnothing] at hchunk
    exact ⟨choiceParcel text raws reported reason, congrArg Reading.ofOutcome hchunk,
      sound_choiceParcel usage.counted arguments indices, rfl, rfl⟩

/-- A choice ends the stream exactly if it has a finish reason. -/
theorem ends_of_hasChoice (label : Value) (h : HasChoice event reason reported) :
    (Vendor.openAI label).ends event = .ok (!reason.isNull) := by
  rcases readEvent_of_hasChoice label h with ⟨hread, rfl, -⟩ | ⟨parcel, hread, -, -, hcomplete⟩
  · exact (ends_of_reading hread).1
  · rw [(ends_of_reading hread).1, ← hcomplete]
    exact parcel.isComplete_toMessage

/-- Choices of which only the last has a finish reason hand on their reports, and what follows them
hands on nothing. -/
theorem handsOn_of_choices (label : Value) {early : List Value} {last : Value}
    {reports : List (Option TokenUsage)} {final : Option TokenUsage}
    (hearly : List.Forall₂ (fun event reported => HasChoice event .null reported) early reports)
    (hlast : HasChoice last reason final) (hreason : reason.isNull = false) (later : List Value) :
    ∃ parcels, HandsOn (.openAI label) (early ++ last :: later) parcels ∧
      (∀ parcel ∈ parcels, parcel.Sound) ∧
      parcels.filterMap Parcel.usage = (reports ++ [final]).reduceOption := by
  -- on the choices before the last; one that is not handed on has no report
  induction hearly with
  | nil =>
    rcases readEvent_of_hasChoice label hlast with
      ⟨-, rfl, -⟩ | ⟨parcel, hread, hsound, rfl, hcomplete⟩
    · cases hreason
    · rw [hreason] at hcomplete
      refine ⟨[parcel], .last hread hcomplete, by simpa using hsound, ?_⟩
      cases hreport : parcel.usage <;> simp [hreport]
  | cons hfirst _ ih =>
    rcases ih with ⟨parcels, hlater, hall, hreports⟩
    rcases readEvent_of_hasChoice label hfirst with
      ⟨hread, -, rfl⟩ | ⟨parcel, hread, hsound, rfl, hcomplete⟩
    · exact ⟨parcels, .skip hread rfl hlater, hall, by simpa using hreports⟩
    · refine ⟨parcel :: parcels, .chunk hread hcomplete hlater,
        List.forall_mem_cons.2 ⟨hsound, hall⟩, ?_⟩
      cases hreport : parcel.usage <;> simp [hreport, hreports]

/-- An event that only reports token counts is read as a chunk of them. -/
theorem readEvent_of_onlyReports (label : Value) {usage : TokenUsage}
    (h : OnlyReports event usage) :
    ∃ m, (Vendor.openAI label).readEvent event = .ok (.chunk m) ∧ m.usage = usage.toValue := by
  have hchunk := chunkOf_of_alone h.choices h.usage.usageOf_eq
  exact ⟨_, congrArg Reading.ofOutcome hchunk, rfl⟩

end Stream.OpenAI

/-! ## What becomes of the token counts -/

namespace Provider

open Parley.Stream.OpenAI

variable {p : Provider} {service : Service} {model : Value} {payload : Payload} {given : Fields}

section Choices

variable {label reason last report : Value} {early later : List Value}
  {reports : List (Option TokenUsage)} {final : Option TokenUsage}

/-- A streamed chat completion comes to its end at the finish reason. -/
theorem events_of_choices (hvendor : p.vendor = .openAI label)
    (hasked : p.Asked model payload given none) (hrefusal : service.refusal = none)
    (hevents : service.events = early ++ last :: later)
    (hearly : List.Forall₂ (fun event reported => HasChoice event .null reported) early reports)
    (hlast : HasChoice last reason final) (hreason : reason.isNull = false) :
    (p.stream service model payload given none).outcome = .ok () ∧
      (p.stream service model payload given none).events = early ++ [last] := by
  -- the finish reason is what ends the stream, so nothing is read behind it
  have hgoing : ∀ e ∈ early, p.vendor.goesOn e = true := by
    intro e he
    rcases exists_of_mem_left hearly he with ⟨reported, -, hchoice⟩
    rw [hvendor, Vendor.goesOn_iff]
    exact ends_of_hasChoice label hchoice
  have hends : p.vendor.ends last = .ok true := by
    rw [hvendor, ends_of_hasChoice label hlast, hreason]
    rfl
  have hstops : p.vendor.goesOn last = false := by
    simp [Vendor.goesOn, hends]
  have hlife := lifecycle_of_asked hasked hrefusal
  have hopens : (p.stream service model payload given none).opens = true :=
    hlife.opens.2 ⟨hlife.asks.2 hasked, hrefusal⟩
  have hread : (p.stream service model payload given none).events = early ++ [last] := by
    rw [hlife.events, if_pos hopens, hevents]
    exact Vendor.upToEnd_append hgoing hstops later
  have hending := hlife.ending hopens
  rw [hread] at hending
  exact ⟨hending.ok_of_ends hends, hread⟩

/-- Of a streamed chat completion the merged reports of its choices are collected. -/
theorem collected_of_choices (hvendor : p.vendor = .openAI label)
    (hasked : p.Asked model payload given none) (hrefusal : service.refusal = none)
    (hevents : service.events = early ++ last :: later)
    (hearly : List.Forall₂ (fun event reported => HasChoice event .null reported) early reports)
    (hlast : HasChoice last reason final) (hreason : reason.isNull = false) :
    ∃ streamed total,
      (p.stream service model payload given none).collected = .ok streamed ∧
      TokenUsage.mergeAll (reports ++ [final]).reduceOption = .ok total ∧
      streamed.usage = usageValue total := by
  rcases events_of_choices hvendor hasked hrefusal hevents hearly hlast hreason with ⟨hok, -⟩
  rcases handsOn_of_choices label hearly hlast hreason later with
    ⟨parcels, hhands, hsound, hreports⟩
  -- the parcels are of the right kinds, so a message can be put together of them
  have hall := assemblable_of_sound hsound
  rw [← hvendor, ← hevents] at hhands
  rcases follow_of_assemblable hhands gathers_empty rfl hall with ⟨a, hfollow, hgathers⟩
  rcases hgathers.exists_result_iff.2 ⟨hall.texts, hall.arguments⟩ with ⟨streamed, hresult⟩
  rcases hgathers.usage with ⟨total, htotal, husage⟩
  have hcollected := collected_of_follow hasked hrefusal hok hfollow
  refine ⟨streamed, total, hcollected.trans hresult, ?_, ?_⟩
  · rw [← hreports]
    exact htotal
  · exact (Accumulator.usage_of_result hresult).trans husage

/-- Token counts that stand alone after the finish reason are lost to a consumer of a streamed chat
completion: the call ends at the event with the finish reason, so the later one is not read,
although its reader would hand on the counts. What is collected are the merged reports of the
choices, and a complete reply with the counts agrees with that exactly if the choices report them
too. -/
theorem usage_of_collected {usage : TokenUsage} {completion : Completion}
    (hvendor : p.vendor = .openAI label) (hasked : p.Asked model payload given none)
    (hcan : p.CanSend false model payload given) (hrefusal : service.refusal = none)
    (hevents : service.events = early ++ last :: report :: later)
    (hearly : List.Forall₂ (fun event reported => HasChoice event .null reported) early reports)
    (hlast : HasChoice last reason final) (hreason : reason.isNull = false)
    (hreport : OnlyReports report usage) (hresponse : completion.InResponse service.response)
    (hcounts : TokenUsage.report completion.counts.prompt completion.counts.completion
      completion.counts.total = .ok (some usage)) :
    ∃ chunk streamed single total,
      p.vendor.readEvent report = .ok (.chunk chunk) ∧ chunk.usage = usage.toValue ∧
      (p.stream service model payload given none).outcome = .ok () ∧
      (p.stream service model payload given none).events = early ++ [last] ∧
      (p.stream service model payload given none).collected = .ok streamed ∧
      TokenUsage.mergeAll (reports ++ [final]).reduceOption = .ok total ∧
      streamed.usage = usageValue total ∧
      (p.complete service model payload given).outcome = .ok single ∧
      single.usage = usage.toValue ∧ (streamed.usage = single.usage ↔ total = some usage) := by
  rcases readEvent_of_onlyReports label hreport with ⟨chunk, hchunk, hchunkUsage⟩
  rw [← hvendor] at hchunk
  rcases events_of_choices hvendor hasked hrefusal hevents hearly hlast hreason with ⟨hok, hread⟩
  rcases collected_of_choices hvendor hasked hrefusal hevents hearly hlast hreason with
    ⟨streamed, total, hcollected, htotal, hstreamed⟩
  rcases Completion.readReply_of_inResponse label hresponse hcounts with ⟨m, hreply, hm⟩
  rw [← hvendor] at hreply
  have hsingle := complete_of_canSend hasked.1 hcan hrefusal hreply
  have husage : (m.annotate [("provider", p.name), ("latency_ms", .float service.latency)]).usage =
      usage.toValue := by
    rw [Message.usage_annotate, hm.usage]
    rfl
  have hagree : usageValue total = usage.toValue ↔ total = some usage :=
    usageValue_injective.eq_iff' rfl
  refine ⟨chunk, streamed, _, total, hchunk, hchunkUsage, hok, hread, hcollected, htotal, hstreamed,
    hsingle, husage, ?_⟩
  rw [hstreamed, husage]
  exact hagree

end Choices

def seatProvider : Provider where
  vendor := .openAI (.str "openai")
  connection := some .handedIn

def seatPayload : Payload where
  vendor := .str "openai"
  messages := .list [.dict [("role", .str "user"), ("content", .str "Which seats?")]]

def seatEnd : Value :=
  Completion.rawEvent [("content", .str "see.")] [] (.str "tool_calls")

def countsAlone (counts : Fields) : Value :=
  .dict [("choices", .list []), ("usage", .dict counts)]

/-- A service that gives the same reply at once and as events, with the counts in the last event. -/
def seatService : Service where
  response := Completion.seatResponse
  events := Completion.seatEarly ++
    [seatEnd, countsAlone [("prompt_tokens", .int 7), ("completion_tokens", .int 19)]]

theorem asked_seats : seatProvider.Asked (.str "m1") seatPayload [] none :=
  ⟨rfl, by simp, rfl, rfl, ⟨none, rfl⟩, ⟨_, rfl⟩⟩

theorem canSend_seats : seatProvider.CanSend false (.str "m1") seatPayload [] :=
  ⟨rfl, rfl, ⟨none, rfl⟩, ⟨_, rfl⟩⟩

/-- A stream that reports the usage behind the finish reason comes to a message without usage, and a
single reply with the same report to one with it. -/
theorem usage_of_collected_seats :
    ∃ streamed single,
      (seatProvider.stream seatService (.str "m1") seatPayload [] none).collected = .ok streamed ∧
      (seatProvider.complete seatService (.str "m1") seatPayload []).outcome = .ok single ∧
      streamed.usage = .null ∧
      single.usage = (TokenUsage.mk (.int 7) (.int 19) (.int 26)).toValue := by
  have hnone : TokenUsage.unreported.Counted := ⟨.inl rfl, .inl rfl, .inl rfl⟩
  have hearly : List.Forall₂ (fun event reported => HasChoice event .null reported)
      Completion.seatEarly (Completion.seatIncrements.map fun _ => none) := by
    rw [List.forall₂_map_right_iff]
    exact Completion.shows_seatEarly.imp fun _ _ hshows => hasChoice_of_shows hshows hnone rfl
  have hlast : HasChoice seatEnd (.str "tool_calls") none := by
    have hshows : Shows seatEnd ⟨"see.", []⟩ (.str "tool_calls") .unreported :=
      Completion.shows_rawEvent (.text "see.") rfl .nil ⟨rfl, rfl, rfl⟩
    exact hasChoice_of_shows hshows hnone rfl
  have hcounts : TokenUsage.report Completion.seatCompletion.counts.prompt
      Completion.seatCompletion.counts.completion Completion.seatCompletion.counts.total =
        .ok (some ⟨.int 7, .int 19, .int 26⟩) := rfl
  have hreport : OnlyReports
      (countsAlone [("prompt_tokens", .int 7), ("completion_tokens", .int 19)])
      ⟨.int 7, .int 19, .int 26⟩ := by
    have hread : Reports (.dict [("prompt_tokens", .int 7), ("completion_tokens", .int 19)])
        Completion.seatCompletion.counts := ⟨rfl, rfl, rfl⟩
    exact ⟨rfl, .counts hread Completion.seatCompletion.counted hcounts⟩
  have hresponse : Completion.seatCompletion.InResponse seatService.response :=
    Completion.inResponse_seats
  rcases usage_of_collected rfl asked_seats canSend_seats rfl rfl hearly hlast rfl hreport
    hresponse hcounts with
    ⟨chunk, streamed, single, total, -, -, -, -, hcollected, htotal, hstreamed, hsingle, husage, -⟩
  cases htotal
  exact ⟨streamed, single, hcollected, hsingle, hstreamed, husage⟩

/-- A service that greets, at once and as events, with the counts in the last event. -/
def greetService : Service where
  response := .dict [("choices", .list [.dict [("message", .dict [("content", .str "Hi")]),
      ("finish_reason", .str "stop")]]),
    ("usage", .dict [("prompt_tokens", .int 3), ("completion_tokens", .int 1),
      ("total_tokens", .int 4)])]
  events := [Completion.rawEvent [("content", .str "Hi")] [] .null,
    Completion.rawEvent [] [] (.str "stop"),
    countsAlone [("prompt_tokens", .int 3), ("completion_tokens", .int 1),
      ("total_tokens", .int 4)]]

/-- The complete greeting carries the counts, and the collected one does not. -/
theorem lost_of_greeting :
    ∃ streamed single,
      (seatProvider.stream greetService (.str "m1") seatPayload [] none).collected =
        .ok streamed ∧
      (seatProvider.complete greetService (.str "m1") seatPayload []).outcome = .ok single ∧
      streamed.content = single.content ∧ streamed.usage = .null ∧
      single.usage = (TokenUsage.mk (.int 3) (.int 1) (.int 4)).toValue :=
  ⟨_, _, rfl, rfl, rfl, rfl, rfl⟩

end Provider

end Parley
