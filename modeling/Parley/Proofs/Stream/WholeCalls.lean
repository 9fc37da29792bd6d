import Parley.Proofs.Stream.Malformed
import Parley.Proofs.Stream.OpenAIAgreement

/-!
# Calls that arrive whole

A chat-completions service may send a call in one piece, in an event of its own, and need not give
it an index. The reader of events numbers a call without an index by its place in its event, which
starts anew with every event, and an accumulator takes what has the same number for fragments of one
call. This file says which calls a stream of whole calls is put together into, and when they are the
calls that were sent.

* `BringsCall`, `DeliversCalls`: events, and streams of events, that bring calls whole;
* `Fragment.number`: the number under which a whole call is read;
* `follow_of_delivers`: such a stream is followed without a fault, and what its events bring;
* `calls_of_delivers`: the calls that it is put together into;
* `merged_of_unindexed`: two calls without an index that are put together into one.
-/

namespace Parley.Stream

/-- The number under which a call is read that is alone in its event: its index, or else its place
in the event. -/
def Fragment.number (sent : Fragment) : Int :=
  sent.index.getD 0

def Fragment.numbered (sent : Fragment) : Fragment :=
  ⟨some sent.number, sent.call⟩

namespace OpenAI

open Parley.OpenAI

/-! ## Streams of whole calls -/

/-- A call of an event that is all there: it is written as in a complete reply, has an id, and may
have an index. -/
structure IsWhole (raw : Value) (sent : Fragment) : Prop where
  call : IsCall raw sent.call
  identified : sent.call.id ≠ ""
  index : raw.read "index" = (sent.index.map Value.int).getD .null

/-- An event that brings at most one call, and all of it. It ends the stream if it has a finish
reason. Whatever it has, there may be a text and token counts in it. -/
inductive BringsCall (event : Value) : Option Fragment → Bool → Prop where
  | choice {choice : Value} {others raws : List Value} {text : String} {sent : Option Fragment}
      {counts : TokenUsage} (choices : event.read "choices" = .list (choice :: others))
      (text : SaysText ((choice.read "delta").read "content") text)
      (made : ((choice.read "delta").read "tool_calls").ifNull (.list []) = .list raws)
      (whole : List.Forall₂ IsWhole raws sent.toList)
      (usage : Reports (event.read "usage") counts) (counted : counts.Counted) :
      BringsCall event sent (!(choice.read "finish_reason").isNull)
  | alone {counts : TokenUsage} (alone : (event.read "choices").truthy = false)
      (usage : Reports (event.read "usage") counts) (counted : counts.Counted) :
      BringsCall event none false

/-- A stream each of whose calls arrives whole in an event of its own. It may break off; what stands
behind its end does not matter. -/
inductive DeliversCalls : List Value → List Fragment → Prop where
  | nil : DeliversCalls [] []
  | next {event : Value} {rest : List Value} {sent : Option Fragment} {later : List Fragment}
      (brings : BringsCall event sent false) (delivers : DeliversCalls rest later) :
      DeliversCalls (event :: rest) (sent.toList ++ later)
  | last {event : Value} {sent : Option Fragment} (brings : BringsCall event sent true)
      (rest : List Value) : DeliversCalls (event :: rest) sent.toList

/-- Calls that are delivered have ids and names. -/
theorem DeliversCalls.identified {events : List Value} {sent : List Fragment}
    (h : DeliversCalls events sent) : ∀ c ∈ sent, c.call.id ≠ "" ∧ c.call.name ≠ "" := by
  have hevent : ∀ {event : Value} {sent : Option Fragment} {ends : Bool},
      BringsCall event sent ends → ∀ c ∈ sent.toList, c.call.id ≠ "" ∧ c.call.name ≠ "" := by
    intro event sent ends hbrings c hc
    cases hbrings with
    | choice _ _ _ whole =>
      rcases exists_of_mem_left whole.flip hc with ⟨raw, -, hwhole⟩
      exact ⟨hwhole.identified, hwhole.call.named⟩
    | alone => cases hc
  induction h with
  | nil => simp
  | next brings _ ih =>
    intro c hc
    rcases List.mem_append.1 hc with hfirst | hlater
    · exact hevent brings c hfirst
    · exact ih c hlater
  | last brings => exact hevent brings

/-! ## Reading them -/

/-- A whole call is read as it is sent. -/
theorem fragmentOf_of_isWhole {raw : Value} {sent : Fragment} (h : IsWhole raw sent) :
    Parley.OpenAI.fragmentOf raw = sent.call.toCall := by
  simp only [Parley.OpenAI.fragmentOf, Value.field_singleton, h.call.id, h.call.name,
    h.call.arguments, TextCall.toCall]
  rfl

/-- It is numbered by its index, and by zero without one. -/
theorem field_index_of_isWhole {raw : Value} {sent : Fragment} (h : IsWhole raw sent) :
    raw.field ["index"] (.int 0) = .int sent.number := by
  rw [Value.field_singleton, h.index, Fragment.number]
  cases sent.index <;> rfl

/-- An event that brings a call is read as a chunk that brings it under its number. -/
theorem reads_of_brings (label : Value) {event : Value} {sent : Option Fragment} {ends : Bool}
    (h : BringsCall event sent ends) :
    ∃ delta, Reads (.openAI label) event delta ∧
      delta.fragments = sent.toList.map Fragment.numbered ∧ delta.complete = ends := by
  cases h with
  | @choice choice others raws text sent counts choices spoken made whole reports counted =>
    rcases TokenUsage.exists_report counted.prompt counted.completion counted.total with
      ⟨usage, husage, hcounted⟩
    let delta : Delta :=
      { text := text
        calls := sent.toList.map Fragment.call
        indices := sent.toList.map Fragment.number
        usage := usage
        finishReason := choice.read "finish_reason"
        complete := !(choice.read "finish_reason").isNull }
    have hcalls : raws.map Parley.OpenAI.fragmentOf = delta.calls.map TextCall.toCall := by
      rw [List.map_map]
      exact map_eq_map_of_forall₂ whole fun _ _ _ hraw => fragmentOf_of_isWhole hraw
    -- a call without an index is the first of its event, so it gets 0
    have hindices : indicesFrom 0 raws = delta.indices.map .int := by
      cases sent with
      | none =>
        cases whole
        rfl
      | some c =>
        rcases List.forall₂_cons_right_iff.1 whole with ⟨raw, rest, hraw, hrest, rfl⟩
        cases hrest
        simpa [indicesFrom, delta] using field_index_of_isWhole hraw
    refine ⟨delta, ?_, ?_, rfl⟩
    · exact reads_of_choice label choices spoken made hcalls hindices
        ((usageOf_of_reports reports).trans husage) hcounted rfl rfl rfl
    · cases sent <;> rfl
  | @alone counts alone reports counted =>
    rcases TokenUsage.exists_report counted.prompt counted.completion counted.total with
      ⟨usage, husage, hcounted⟩
    -- without a choice there is no call, but there may be a report
    have hchunk := chunkOf_of_alone alone ((usageOf_of_reports reports).trans husage)
    cases usage with
    | none =>
      exact ⟨{}, .nothing (congrArg Reading.ofOutcome hchunk) ⟨rfl, rfl, rfl, rfl, rfl, rfl⟩, rfl,
        rfl⟩
    | some u =>
      let delta : Delta := { usage := some u, model := event.read "model" }
      refine ⟨delta, .chunk (congrArg Reading.ofOutcome hchunk) ?_, rfl, rfl⟩
      exact brings_chunk delta (.inr ⟨rfl, rfl⟩) (.inl ⟨rfl, rfl⟩) hcounted (by simp) (by simp)
        (by simp [delta]) (by simp [delta])

/-- A stream of whole calls is followed without a fault, and its events bring the calls under their
numbers. -/
theorem follow_of_delivers (label : Value) {events : List Value} {sent : List Fragment}
    {a : Accumulator} {before : List Delta} (h : DeliversCalls events sent)
    (ha : Holds a before) (hopen : a.isComplete = false) :
    ∃ b deltas, followEvents (.openAI label) a events = .ok b ∧ Holds b (before ++ deltas) ∧
      deltas.flatMap Delta.fragments = sent.map Fragment.numbered := by
  -- on the events, with whatever has been brought before; while one is read the stream is open
  induction h generalizing a before with
  | nil => exact ⟨a, [], rfl, by simpa using ha, rfl⟩
  | @next event rest sent later brings _ ih =>
    rcases reads_of_brings label brings with ⟨delta, hreads, hfragments, hgoes⟩
    rcases holds_feedEvent hreads ha hopen with ⟨b, hfeed, hb⟩
    have hgoing : b.isComplete = false := by
      rw [hb.complete, List.any_append, ← ha.complete, hopen]
      simp [hgoes]
    rcases ih hb hgoing with ⟨c, deltas, hfollow, hc, hlater⟩
    refine ⟨c, delta :: deltas, ?_, by simpa using hc, by simp [hfragments, hlater]⟩
    rw [followEvents, Outcome.bind_of_ok hfeed]
    simpa only [hgoing, Bool.false_eq_true, if_false] using hfollow
  | @last event sent brings rest =>
    rcases reads_of_brings label brings with ⟨delta, hreads, hfragments, hends⟩
    rcases holds_feedEvent hreads ha hopen with ⟨b, hfeed, hb⟩
    have hcomplete : b.isComplete = true := by
      rw [hb.complete]
      simp [hends]
    refine ⟨b, [delta], ?_, hb, by simp [hfragments]⟩
    rw [followEvents, Outcome.bind_of_ok hfeed]
    simp only [hcomplete, if_true]
    rfl

/-! ## What they make up -/

theorem whole_singleton (sent : Fragment) : whole [sent] = closed sent.call := by
  simp [whole, closed, firstText_of_first]

/-- Calls under one number are merged: the first gives the id and the name, and the arguments of all
are joined. -/
theorem whole_numbered_cons {first : Fragment} {later : List Fragment}
    (hid : first.call.id ≠ "") (hname : first.call.name ≠ "") :
    whole ((first :: later).map Fragment.numbered) =
      closed ⟨first.call.id, first.call.name,
        String.join ((first :: later).map fun c => c.call.arguments)⟩ := by
  simp [whole, closed, firstText_cons, hid, hname, Fragment.numbered, Function.comp_def]

/-- No call belongs to an earlier one exactly if all numbers are different. -/
theorem apart_numbered_iff {sent : List Fragment} :
    ((sent.map Fragment.numbered).Pairwise fun first later => first.joins later = false) ↔
      (sent.map Fragment.number).Nodup := by
  simp [List.Nodup, List.pairwise_map, Fragment.joins, Fragment.numbered]

/-- Calls of one number are a single group. -/
theorem groups_of_same_number {first : Fragment} {later : List Fragment}
    (h : ∀ c ∈ later, c.number = first.number) :
    groups ((first :: later).map Fragment.numbered) =
      [(first :: later).map Fragment.numbered] := by
  have hjoins : ∀ c ∈ later.map Fragment.numbered, first.numbered.joins c = true := by
    simpa [Fragment.joins, Fragment.numbered] using fun c hc => (h c hc).symm
  have hothers : first.numbered.others (later.map Fragment.numbered) = [] := by
    simpa [Fragment.others, List.filter_eq_nil_iff] using hjoins
  rw [List.map_cons, groups, hothers, List.filter_eq_self.2 hjoins, groups]

/-- A stream whose calls arrive whole, each in an event of its own, is put together into one call
for each number, the calls in order of first appearance. It has the calls that were sent exactly if
their numbers are all different, whatever their ids; so one call at most may do without an index.
Calls of which none has an index all become one, under the id and the name of the first, with their
argument texts run together. -/
theorem calls_of_delivers (label : Value) {events : List Value} {sent : List Fragment}
    (h : DeliversCalls events sent) :
    ∃ a m, followEvents (.openAI label) .empty events = .ok a ∧ a.result = .ok m ∧
      m.toolCalls = (groups (sent.map Fragment.numbered)).map (fun group => (whole group).toValue) ∧
      (m.toolCalls = sent.map (fun c => (closed c.call).toValue) ↔
        (sent.map Fragment.number).Nodup) ∧
      ∀ first later, sent = first :: later → (∀ c ∈ sent, c.index = none) →
        m.toolCalls = [(closed ⟨first.call.id, first.call.name,
          String.join (sent.map fun c => c.call.arguments)⟩).toValue] := by
  rcases follow_of_delivers label h holds_empty rfl with ⟨a, deltas, hfollow, ha, hfragments⟩
  rcases makesUp_of_holds ha with ⟨m, hresult, hm⟩
  have hcalls := hm.toolCalls
  rw [List.nil_append, hfragments] at hcalls
  refine ⟨a, m, hfollow, hresult, hcalls, ⟨?_, ?_⟩, ?_⟩
  · intro hsent
    -- there are as many groups as calls, so no group has two of them
    rw [← apart_numbered_iff]
    apply apart_of_length_groups
    simpa using congrArg List.length (hcalls.symm.trans hsent)
  · intro hnodup
    rw [hcalls, groups_of_apart (apart_numbered_iff.2 hnodup)]
    simp [Function.comp_def, whole_singleton, Fragment.numbered]
  · -- all of them have the number 0
    rintro first later rfl hnone
    rcases h.identified first (by simp) with ⟨hid, hname⟩
    have hsame : ∀ c ∈ later, c.number = first.number := by
      intro c hc
      simp [Fragment.number, hnone c (by simp [hc]), hnone first (by simp)]
    rw [hcalls, groups_of_same_number hsame, List.map_singleton, whole_numbered_cons hid hname]

/-! ### Two calls -/

def weatherCall : TextCall := ⟨"call_1", "weather", r#"{"city": "Oslo"}"#⟩

def clockCall : TextCall := ⟨"call_2", "clock", r#"{"zone": "CET"}"#⟩

def callEvent (index : Option Int) (call : TextCall) : Value :=
  Completion.rawEvent [("tool_calls", .list [.dict (index.toList.map (fun i => ("index", .int i)) ++
    [("id", .str call.id), ("type", .str "function"), ("function",
      .dict [("name", .str call.name), ("arguments", .str call.arguments)])])])] [] .null

def callsEnd : Value :=
  Completion.rawEvent [] [] (.str "tool_calls")

/-- An event brings the call that is put into it, if it says nothing else. -/
theorem bringsCall_rawEvent {delta : Fields} {raws : List Value} {sent : Option Fragment}
    (reason : Value) (hsilent : delta.value "content" = .null)
    (hmade : (delta.value "tool_calls").ifNull (.list []) = .list raws)
    (hwhole : List.Forall₂ IsWhole raws sent.toList) :
    BringsCall (Completion.rawEvent delta [] reason) sent (!reason.isNull) := by
  have hchoices : (Completion.rawEvent delta [] reason).read "choices" =
      .list [Completion.rawChoice delta reason] := by
    simp [Completion.rawEvent]
  have htext : SaysText (((Completion.rawChoice delta reason).read "delta").read "content") "" := by
    simpa [Completion.rawChoice, hsilent] using SaysText.nothing
  have husage : Reports ((Completion.rawEvent delta [] reason).read "usage") .unreported := by
    constructor <;> rfl
  have hbrings := BringsCall.choice hchoices htext (by simpa [Completion.rawChoice] using hmade)
    hwhole husage ⟨.inl rfl, .inl rfl, .inl rfl⟩
  simpa [Completion.rawChoice] using hbrings

theorem bringsCall_callEvent (index : Option Int) {call : TextCall} (hid : call.id ≠ "")
    (hname : call.name ≠ "") :
    BringsCall (callEvent index call) (some ⟨index, call⟩) false := by
  refine bringsCall_rawEvent .null rfl rfl (.cons ?_ .nil)
  cases index <;> exact ⟨⟨rfl, rfl, hname, rfl⟩, hid, rfl⟩

theorem bringsCall_callsEnd : BringsCall callsEnd none true :=
  bringsCall_rawEvent (.str "tool_calls") rfl rfl .nil

/-- Two calls are delivered, the second with any index or with none. -/
theorem delivers_weather_clock (index : Option Int) :
    DeliversCalls [callEvent none weatherCall, callEvent index clockCall, callsEnd]
      [⟨none, weatherCall⟩, ⟨index, clockCall⟩] :=
  .next (bringsCall_callEvent none (by decide) (by decide))
    (.next (bringsCall_callEvent index (by decide) (by decide)) (.last bringsCall_callsEnd []))

/-- A call without an index and one with another index than 0 are kept apart. -/
theorem calls_of_delivers_weather :
    ∃ a m,
      followEvents (.openAI (.str "openai")) .empty
        [callEvent none weatherCall, callEvent (some 1) clockCall, callsEnd] = .ok a ∧
      a.result = .ok m ∧ m.toolCalls = [weatherCall.toValue, clockCall.toValue] := by
  rcases calls_of_delivers (.str "openai") (delivers_weather_clock (some 1)) with
    ⟨a, m, hfollow, hresult, -, hcalls, -⟩
  exact ⟨a, m, hfollow, hresult, hcalls.2 (by decide)⟩

/-- Two calls with different ids, each whole in an event of its own and without an index, are put
together into a single call that nobody has made. -/
theorem merged_of_unindexed :
    let events := [callEvent none weatherCall, callEvent none clockCall, callsEnd]
    DeliversCalls events [⟨none, weatherCall⟩, ⟨none, clockCall⟩] ∧
    weatherCall.id ≠ clockCall.id ∧
    ∃ a m, followEvents (.openAI (.str "openai")) .empty events = .ok a ∧ a.isComplete = true ∧
      a.result = .ok m ∧
      m.toolCalls = [TextCall.toValue ⟨"call_1", "weather",
        r#"{"city": "Oslo"}{"zone": "CET"}"#⟩] :=
  ⟨delivers_weather_clock none, by decide, _, _, rfl, rfl, rfl, rfl⟩

end OpenAI

end Parley.Stream
