import Parley.Proofs.Reply.OpenAI
import Parley.Proofs.Stream.Events
import Parley.Vendor.Reading

/-!
# Streamed and complete chat completions agree

A completion is what a chat-completions service says to a request, whichever way it delivers it: as
a response, or as a stream of events in which the text is cut into pieces and the fragments of its
calls alternate in any way. Both ways are read alike, but for two things: the events do not hand on
the model, and a stream gives a call without arguments an empty object of them.

* `CarriesCalls`: fragments carry calls, told apart by their indices;
* `reads_of_shows`: an event is read as a chunk that brings what it shows, or as nothing;
* `map_whole_groups`: the groups of the fragments are the calls that they carry;
* `Completion.read_alike`: the message of the stream agrees with the message of the response.
-/

namespace Parley.Stream.OpenAI

open Parley.OpenAI

/-! ## Completions and how they are delivered -/

/-- A completion: its text and calls, why it stopped, and its token counts as far as they are
reported. -/
structure Completion where
  text : String
  calls : List TextCall
  finishReason : String
  counts : TokenUsage
  counted : counts.Counted

/-- A usage entry that reports token counts. It need not be there if there are none. -/
structure Reports (usage : Value) (counts : TokenUsage) : Prop where
  prompt : usage.read "prompt_tokens" = counts.prompt
  completion : usage.read "completion_tokens" = counts.completion
  total : usage.read "total_tokens" = counts.total

/-- A response that holds a completion. -/
inductive Completion.InResponse (completion : Completion) (response : Value) : Prop where
  | choice {choice : Value} {others raws : List Value}
      (choices : response.read "choices" = .list (choice :: others))
      (message : (choice.read "message").isNull = false)
      (text : SaysText ((choice.read "message").read "content") completion.text)
      (made : ((choice.read "message").read "tool_calls").ifNull (.list []) = .list raws)
      (calls : List.Forall₂ IsCall raws completion.calls)
      (reason : choice.read "finish_reason" = .str completion.finishReason)
      (usage : Reports (response.read "usage") completion.counts)

/-- A call fragment of an event. It has an index; what else is empty may be left out. -/
structure IsFragment (raw : Value) (fragment : Fragment) : Prop where
  index : ∃ index : Int, fragment.index = some index ∧ raw.read "index" = .int index
  id : (raw.read "id").ifNull (.str "") = .str fragment.call.id
  name : ((raw.read "function").read "name").ifNull (.str "") = .str fragment.call.name
  arguments : ((raw.read "function").read "arguments").ifNull (.str "") =
    .str fragment.call.arguments

/-- What an event adds: a piece of the text and fragments of calls. -/
structure Increment where
  text : String
  fragments : List Fragment

/-- An event that shows an increment, a finish reason and token counts. -/
inductive Shows (event : Value) (increment : Increment) (reason : Value) (counts : TokenUsage) :
    Prop where
  | choice {choice : Value} {others raws : List Value}
      (choices : event.read "choices" = .list (choice :: others))
      (text : SaysText ((choice.read "delta").read "content") increment.text)
      (made : ((choice.read "delta").read "tool_calls").ifNull (.list []) = .list raws)
      (fragments : List.Forall₂ IsFragment raws increment.fragments)
      (reason : choice.read "finish_reason" = reason)
      (usage : Reports (event.read "usage") counts)

/-- Fragments that carry a call: the first has its id and its name, and the argument text is cut
among all of them. An id or a name that the first has is not looked for in the later ones. -/
inductive CarriesCall : List Fragment → TextCall → Prop where
  | fragments {first : Fragment} {later : List Fragment} {call : TextCall}
      (id : first.call.id = call.id) (name : first.call.name = call.name)
      (ids : call.id = "" → ∀ f ∈ later, f.call.id = "")
      (names : call.name = "" → ∀ f ∈ later, f.call.name = "")
      (whole : String.join ((first :: later).map fun f => f.call.arguments) = call.arguments) :
      CarriesCall (first :: later) call

/-- Fragments that carry calls: those of each index carry one, and the indices first appear in the
order of the calls. Otherwise the fragments of different calls may alternate in any way. -/
def CarriesCalls (fragments : List Fragment) (calls : List TextCall) : Prop :=
  List.Forall₂ (fun index call => CarriesCall (fragments.filter fun f => f.index == index) call)
    (fragments.map Fragment.index).eraseDups calls

/-- A stream that delivers a completion. Only the last event has the finish reason and the token
counts. -/
inductive Completion.InStream (completion : Completion) : List Value → Prop where
  | events {early : List Value} {last : Value} {increments : List Increment} {final : Increment}
      (shows : List.Forall₂ (fun event increment => Shows event increment .null .unreported) early
        increments)
      (ends : Shows last final (.str completion.finishReason) completion.counts)
      (text : String.join ((increments ++ [final]).map Increment.text) = completion.text)
      (calls : CarriesCalls ((increments ++ [final]).flatMap Increment.fragments)
        completion.calls) : InStream completion (early ++ [last])

/-! ## Reading an event -/

/-- Counts that are reported are read as a report of them. -/
theorem usageOf_of_reports {raw : Value} {counts : TokenUsage}
    (h : Reports (raw.read "usage") counts) :
    usageOf raw = TokenUsage.report counts.prompt counts.completion counts.total := by
  rw [usageOf_eq, h.prompt, h.completion, h.total]

/-- A raw fragment is read as the fragment. -/
theorem fragmentOf_of_isFragment {raw : Value} {fragment : Fragment} (h : IsFragment raw fragment) :
    Parley.OpenAI.fragmentOf raw = fragment.call.toCall := by
  simp only [Parley.OpenAI.fragmentOf, Value.field_singleton, h.id, h.name, h.arguments,
    TextCall.toCall]

/-- Raw fragments are read one by one. -/
theorem map_fragmentOf {raws : List Value} {fragments : List Fragment}
    (h : List.Forall₂ IsFragment raws fragments) :
    raws.map Parley.OpenAI.fragmentOf = (fragments.map Fragment.call).map TextCall.toCall := by
  induction h with
  | nil => rfl
  | cons hraw _ ih => simp [fragmentOf_of_isFragment hraw, ih]

/-- The indices that are read are the explicit ones, wherever in the event the fragments stand. -/
theorem indicesFrom_of_isFragment {raws : List Value} {fragments : List Fragment}
    (h : List.Forall₂ IsFragment raws fragments) (position : Nat) :
    indicesFrom position raws = (fragments.filterMap Fragment.index).map .int := by
  induction h generalizing position with
  | nil => rfl
  | cons hraw _ ih =>
    rcases hraw.index with ⟨index, hindex, hread⟩
    simp [indicesFrom, Value.field_singleton, hread, hindex, ih, Value.ifNull, Value.isNull]

theorem ne_none_of_isFragment {raws : List Value} {fragments : List Fragment}
    (h : List.Forall₂ IsFragment raws fragments) : ∀ f ∈ fragments, f.index ≠ none := by
  induction h with
  | nil => simp
  | cons hraw _ ih =>
    rcases hraw.index with ⟨index, hindex, -⟩
    simpa [hindex] using ih

/-- Fragments that all have an index are found again under their indices. -/
theorem fragmentsFrom_of_indexed (before : List Int) {fragments : List Fragment}
    (h : ∀ f ∈ fragments, f.index ≠ none) :
    Delta.fragmentsFrom (before ++ fragments.filterMap Fragment.index) before.length
      (fragments.map Fragment.call) = fragments := by
  induction fragments generalizing before with
  | nil => rfl
  | cons f rest ih =>
    rcases Option.ne_none_iff_exists'.1 (h f (by simp)) with ⟨index, hindex⟩
    have hrest := ih (before ++ [index]) fun g hg => h g (by simp [hg])
    have hfirst : Fragment.mk (some index) f.call = f := by rw [← hindex]
    simpa [Delta.fragmentsFrom, hindex, hfirst] using hrest

def Increment.delta (increment : Increment) (reason : Value) (usage : Option TokenUsage) :
    Delta where
  text := increment.text
  calls := increment.fragments.map Fragment.call
  indices := increment.fragments.filterMap Fragment.index
  usage := usage
  finishReason := reason
  complete := !reason.isNull

/-- The fragments of an increment are those of its delta. -/
theorem Increment.fragments_delta {increment : Increment} (reason : Value)
    (usage : Option TokenUsage) (h : ∀ f ∈ increment.fragments, f.index ≠ none) :
    (increment.delta reason usage).fragments = increment.fragments :=
  fragmentsFrom_of_indexed [] h

/-- The fragments of an event that is shown have indices. -/
theorem Shows.indexed {event : Value} {increment : Increment} {reason : Value}
    {counts : TokenUsage} (h : Shows event increment reason counts) :
    ∀ f ∈ increment.fragments, f.index ≠ none := by
  rcases h with ⟨-, -, -, fragments, -, -⟩
  exact ne_none_of_isFragment fragments

/-- An event with a choice is read as what the parts of the choice are. -/
theorem reads_of_choice (label : Value) {event choice : Value} {others raws : List Value}
    {delta : Delta} (hchoices : event.read "choices" = .list (choice :: others))
    (htext : SaysText ((choice.read "delta").read "content") delta.text)
    (hmade : ((choice.read "delta").read "tool_calls").ifNull (.list []) = .list raws)
    (hcalls : raws.map Parley.OpenAI.fragmentOf = delta.calls.map TextCall.toCall)
    (hindices : indicesFrom 0 raws = delta.indices.map .int)
    (husage : usageOf event = .ok delta.usage) (hcounted : ∀ u ∈ delta.usage, u.Counted)
    (hmodel : delta.model = .null) (hreason : choice.read "finish_reason" = delta.finishReason)
    (hcomplete : delta.complete = !delta.finishReason.isNull) :
    Reads (.openAI label) event delta := by
  have hchunk := chunkOf_of_choice hchoices htext hmade husage
  rw [hreason, hcalls, hindices, ← hcomplete] at hchunk
  by_cases hnothing : (delta.text = "" && raws.isEmpty && delta.finishReason.isNull &&
      delta.usage.isNone) = true
  · rw [if_pos hnothing] at hchunk
    simp only [Bool.and_eq_true, decide_eq_true_eq, List.isEmpty_iff, Value.isNull_iff,
      Option.isNone_iff_eq_none] at hnothing
    rcases hnothing with ⟨⟨⟨htext, rfl⟩, hnull⟩, hnone⟩
    have hread : (Vendor.openAI label).readEvent event = .ok .nothing :=
      congrArg Reading.ofOutcome hchunk
    exact .nothing hread ⟨htext, by simpa using hcalls.symm, hnone, hmodel, hnull,
      by simp [hcomplete, hnull]⟩
  · rw [if_neg hnothing] at hchunk
    refine .chunk (congrArg Reading.ofOutcome hchunk) (brings_chunk delta (.inl rfl) ?_ hcounted ?_
      ?_ ?_ ?_)
    · cases raws with
      | nil => exact .inl ⟨rfl, by simpa [indicesFrom] using hindices.symm⟩
      | cons => exact .inr rfl
    · simp
    · simp
    · simp [hmodel]
    · simp

/-- An event is read as what it shows. -/
theorem reads_of_shows (label : Value) {event : Value} {increment : Increment} {reason : Value}
    {counts : TokenUsage} {usage : Option TokenUsage} (h : Shows event increment reason counts)
    (husage : TokenUsage.report counts.prompt counts.completion counts.total = .ok usage)
    (hcounted : ∀ u ∈ usage, u.Counted) :
    Reads (.openAI label) event (increment.delta reason usage) := by
  rcases h with ⟨choices, text, made, fragments, hreason, reports⟩
  exact reads_of_choice label choices text made (map_fragmentOf fragments)
    (indicesFrom_of_isFragment fragments 0) ((usageOf_of_reports reports).trans husage) hcounted
    rfl hreason rfl

/-! ## Reading a stream -/

/-- What the increments of a stream bring. Only the last event brings the end and the counts. -/
def brought (increments : List Increment) (final : Increment) (reason : String)
    (usage : Option TokenUsage) : List Delta :=
  increments.map (fun increment => increment.delta .null none) ++ [final.delta (.str reason) usage]

section Brought

variable {increments : List Increment} {final : Increment} {reason : String}
  {usage : Option TokenUsage}

/-- Nothing ends the stream before the last delta. -/
theorem open_brought : ∀ delta ∈ (brought increments final reason usage).dropLast,
    delta.complete = false := by
  simp [brought, Increment.delta]

/-- The deltas bring the texts of the increments. -/
theorem texts_brought :
    (brought increments final reason usage).map Delta.text =
      (increments ++ [final]).map Increment.text := by
  simp [brought, Increment.delta]

theorem reports_brought :
    (brought increments final reason usage).filterMap Delta.usage = usage.toList := by
  cases usage <;> simp [brought, Increment.delta]

/-- They bring the fragments of the increments. -/
theorem fragments_brought
    (h : ∀ increment ∈ increments ++ [final], ∀ f ∈ increment.fragments, f.index ≠ none) :
    (brought increments final reason usage).flatMap Delta.fragments =
      (increments ++ [final]).flatMap Increment.fragments := by
  have hearly : increments.flatMap (fun increment => (increment.delta .null none).fragments) =
      increments.flatMap Increment.fragments := by
    apply List.flatMap_congr
    intro increment hmem
    exact Increment.fragments_delta _ _ (h increment (by simp [hmem]))
  have hlast : (final.delta (.str reason) usage).fragments = final.fragments :=
    Increment.fragments_delta _ _ (h final (by simp))
  simp [brought, List.flatMap_map, hearly, hlast]

/-- Events that show increments are read as their deltas. -/
theorem reads_brought (label : Value) {early : List Value} {last : Value} {counts : TokenUsage}
    (hearly : List.Forall₂ (fun event increment => Shows event increment .null .unreported) early
      increments) (hlast : Shows last final (.str reason) counts)
    (husage : TokenUsage.report counts.prompt counts.completion counts.total = .ok usage)
    (hcounted : ∀ u ∈ usage, u.Counted) :
    List.Forall₂ (fun (event : Vendor × Value) delta => Reads event.1 event.2 delta)
      ((early ++ [last]).map fun event => (Vendor.openAI label, event))
      (brought increments final reason usage) := by
  have hfirst : List.Forall₂ (Reads (.openAI label)) early
      (increments.map fun increment => increment.delta .null none) := by
    rw [List.forall₂_map_right_iff]
    exact hearly.imp fun event increment hshows => reads_of_shows label hshows rfl (by simp)
  rw [List.forall₂_map_left_iff]
  exact List.rel_append hfirst (.cons (reads_of_shows label hlast husage hcounted) .nil)

end Brought

/-- Every fragment of a stream has an index. -/
theorem indexed_of_shows {early : List Value} {last : Value} {increments : List Increment}
    {final : Increment} {reason : Value} {counts : TokenUsage}
    (hearly : List.Forall₂ (fun event increment => Shows event increment .null .unreported) early
      increments) (hlast : Shows last final reason counts) :
    ∀ increment ∈ increments ++ [final], ∀ f ∈ increment.fragments, f.index ≠ none := by
  induction hearly with
  | nil => simpa using hlast.indexed
  | cons hfirst _ ih =>
    intro increment hmem
    rcases List.mem_cons.1 hmem with rfl | hrest
    · exact hfirst.indexed
    · exact ih increment hrest

/-! ## What the fragments make up -/

/-- A call as a stream gives it: an argument text that is empty is one of no arguments. -/
def closed (call : TextCall) : TextCall where
  id := call.id
  name := call.name
  arguments := if call.arguments = "" then "{}" else call.arguments

/-- Fragments that carry a call make the call. -/
theorem whole_of_carries {group : List Fragment} {call : TextCall} (h : CarriesCall group call) :
    whole group = closed call := by
  rcases h with @⟨first, later, _, id, name, ids, names, hwhole⟩
  have hid : firstText ((first :: later).map fun f => f.call.id) = call.id := by
    rw [List.map_cons, id]
    exact firstText_of_first (by simpa using ids)
  have hname : firstText ((first :: later).map fun f => f.call.name) = call.name := by
    rw [List.map_cons, name]
    exact firstText_of_first (by simpa using names)
  simp only [whole, hid, hname, hwhole, closed]

/-- Fragments that carry calls are grouped into them, however they alternate. -/
theorem map_whole_groups {fragments : List Fragment} {calls : List TextCall}
    (hindexed : ∀ f ∈ fragments, f.index ≠ none) (h : CarriesCalls fragments calls) :
    (groups fragments).map whole = calls.map closed := by
  have hwhole := h.imp fun _ _ hcarries => whole_of_carries hcarries
  rw [groups_of_indexed hindexed, List.map_map, ← List.forall₂_eq_eq_eq, List.forall₂_map_left_iff,
    List.forall₂_map_right_iff]
  exact hwhole

/-! ## Agreement -/

namespace Completion

variable {completion : Completion}

/-- The content of a completion: nothing if there are calls and no text. -/
def content (completion : Completion) : Value :=
  if completion.text = "" && !completion.calls.isEmpty then .null else .str completion.text

/-- A message that is read from a completion, with some calls and some usage. -/
structure ReadAs (completion : Completion) (calls : List TextCall) (usage : Option TokenUsage)
    (m : Message) : Prop where
  role : m.role = .str "assistant"
  content : m.content = completion.content
  toolCalls : m.toolCalls = calls.map TextCall.toValue
  usage : m.usage = usageValue usage
  finishReason : m.metadata.get "finish_reason" = .ok (.str completion.finishReason)

/-- A response is read as the completion that it holds. -/
theorem readReply_of_inResponse (label : Value) {response : Value} {usage : Option TokenUsage}
    (h : completion.InResponse response)
    (husage : TokenUsage.report completion.counts.prompt completion.counts.completion
      completion.counts.total = .ok usage) :
    ∃ single, (Vendor.openAI label).readReply response = .ok single ∧
      completion.ReadAs completion.calls usage single := by
  rcases h with @⟨choice, others, raws, choices, message, text, made, calls, reason, reports⟩
  have hread := replyOf_of_choice (.openAI label) choices message text made calls
    ((usageOf_of_reports reports).trans husage)
  refine ⟨_, by rw [Vendor.readReply, hread, Reply.checked_ok], rfl, ?_, ?_, rfl, ?_⟩
  · by_cases htext : completion.text = "" <;>
      simp [Reply.message, Reply.content, content, Value.truthy, Value.orElse, htext]
  · simp [Reply.message, TextCall.toValue, Function.comp_def]
  · simp [Reply.message, reason]

/-- A stream is read as the completion that it delivers. -/
theorem readAs_of_inStream (label : Value) {events : List Value} {usage : Option TokenUsage}
    (h : completion.InStream events)
    (husage : TokenUsage.report completion.counts.prompt completion.counts.completion
      completion.counts.total = .ok usage) (hcounted : ∀ u ∈ usage, u.Counted) :
    ∃ a streamed, feedEvents (.openAI label) .empty events = .ok a ∧ a.result = .ok streamed ∧
      completion.ReadAs (completion.calls.map closed) usage streamed ∧
      streamed.isComplete = .ok true := by
  rcases h with @⟨early, last, increments, final, shows, ends, text, calls⟩
  -- only the last event ends the stream, so all of them can be fed
  rcases makesUp_of_reads (reads_brought label shows ends husage hcounted) open_brought with
    ⟨a, streamed, hfeed, hresult, hm⟩
  have hindexed := indexed_of_shows shows ends
  have hall : ∀ f ∈ (increments ++ [final]).flatMap Increment.fragments, f.index ≠ none := by
    intro f hf
    rcases List.mem_flatMap.1 hf with ⟨increment, hmem, hf⟩
    exact hindexed increment hmem f hf
  have htoolCalls : streamed.toolCalls = (completion.calls.map closed).map TextCall.toValue := by
    apply hm.toolCalls_eq
    rw [fragments_brought hindexed]
    exact map_whole_groups hall calls
  have husageValue : streamed.usage = usageValue usage := by
    apply hm.usage_eq
    rw [reports_brought, TokenUsage.mergeAll_toList]
  refine ⟨a, streamed, ?_, hresult, ⟨hm.role, ?_, htoolCalls, husageValue, ?_⟩, ?_⟩
  · rw [feedEvents_eq]
    exact hfeed
  · simp only [hm.content, texts_brought, text, htoolCalls, content, List.isEmpty_map]
  · rw [hm.get_finishReason]
    simp [brought, latest_append, Increment.delta]
  · rw [hm.isComplete_eq]
    simp [brought, Increment.delta]

/-- However a completion is cut into events, and however the fragments of its calls alternate,
feeding the stream succeeds, and its message is the one that the complete response is read as, but
that a call without arguments has an empty object of them. -/
theorem read_alike {response : Value} {events : List Value} (label : Value)
    (hresponse : completion.InResponse response) (hstream : completion.InStream events) :
    ∃ usage single a streamed,
      TokenUsage.report completion.counts.prompt completion.counts.completion
        completion.counts.total = .ok usage ∧
      (Vendor.openAI label).readReply response = .ok single ∧
      feedEvents (.openAI label) .empty events = .ok a ∧ a.result = .ok streamed ∧
      completion.ReadAs completion.calls usage single ∧
      completion.ReadAs (completion.calls.map closed) usage streamed ∧
      streamed.isComplete = .ok true := by
  rcases TokenUsage.exists_report completion.counted.prompt completion.counted.completion
    completion.counted.total with ⟨usage, husage, hcounted⟩
  rcases readReply_of_inResponse label hresponse husage with ⟨single, hread, hsingle⟩
  rcases readAs_of_inStream label hstream husage hcounted with
    ⟨a, streamed, hfeed, hresult, hstreamed, hcomplete⟩
  exact ⟨usage, single, a, streamed, husage, hread, hfeed, hresult, hsingle, hstreamed, hcomplete⟩

def seatCompletion : Completion where
  text := "Let me see."
  calls := [⟨"t1", "seats", r#"{"row": 3}"#⟩, ⟨"t2", "now", ""⟩]
  finishReason := "tool_calls"
  counts := ⟨.int 7, .int 19, .null⟩
  counted := ⟨.inr ⟨7, rfl⟩, .inr ⟨19, rfl⟩, .inl rfl⟩

def rawCall (id name : String) (function : Fields) : Value :=
  .dict [("id", .str id), ("type", .str "function"),
    ("function", .dict (("name", .str name) :: function))]

def rawFragment (index : Int) (fields : Fields) : Value :=
  .dict (("index", .int index) :: fields)

def rawChoice (delta : Fields) (reason : Value) : Value :=
  .dict [("delta", .dict delta), ("finish_reason", reason)]

def rawEvent (delta rest : Fields) (reason : Value) : Value :=
  .dict (("choices", .list [rawChoice delta reason]) :: rest)

/-- The choice in which a response holds the completion. -/
def seatChoice : Value :=
  .dict [("finish_reason", .str "tool_calls"),
    ("message", .dict [("role", .str "assistant"), ("content", .str "Let me see."),
      ("tool_calls", .list [rawCall "t1" "seats" [("arguments", .str r#"{"row": 3}"#)],
        rawCall "t2" "now" []])])]

def seatResponse : Value :=
  .dict [("model", .str "m1"), ("choices", .list [seatChoice]),
    ("usage", .dict [("prompt_tokens", .int 7), ("completion_tokens", .int 19)])]

/-- What the events of the stream show: who speaks, which is nothing, then pieces of the text and
fragments of both calls. -/
def seatIncrements : List Increment :=
  [⟨"", []⟩,
    ⟨"Let ", [⟨some 0, ⟨"t1", "seats", ""⟩⟩, ⟨some 2, ⟨"t2", "now", ""⟩⟩]⟩,
    ⟨"me ", [⟨some 0, ⟨"", "", r#"{"row""#⟩⟩]⟩,
    ⟨"", [⟨some 2, ⟨"t2", "", ""⟩⟩, ⟨some 0, ⟨"", "", r": 3}"⟩⟩]⟩]

def seatEarly : List Value :=
  [rawEvent [("role", .str "assistant"), ("content", .str "")] [] .null,
    rawEvent [("content", .str "Let "), ("tool_calls", .list
      [rawFragment 0 [("id", .str "t1"), ("function", .dict [("name", .str "seats")])],
        rawFragment 2 [("id", .str "t2"), ("function", .dict [("name", .str "now")])]])] [] .null,
    rawEvent [("content", .str "me "), ("tool_calls", .list
      [rawFragment 0 [("function", .dict [("arguments", .str r#"{"row""#)])]])] [] .null,
    rawEvent [("tool_calls", .list [rawFragment 2 [("id", .str "t2")],
      rawFragment 0 [("function", .dict [("arguments", .str r": 3}")])]])] [] .null]

def seatLast : Value :=
  rawEvent [("content", .str "see.")]
    [("usage", .dict [("prompt_tokens", .int 7), ("completion_tokens", .int 19)])]
    (.str "tool_calls")

theorem inResponse_seats : seatCompletion.InResponse seatResponse := by
  have hchoices : seatResponse.read "choices" = .list [seatChoice] := by
    simp [seatResponse]
  have hcalls : List.Forall₂ IsCall
      [rawCall "t1" "seats" [("arguments", .str r#"{"row": 3}"#)], rawCall "t2" "now" []]
      seatCompletion.calls := by
    refine .cons ?_ (.cons ?_ .nil) <;> constructor <;> simp [rawCall, Value.ifNull]
  have htext : SaysText ((seatChoice.read "message").read "content") seatCompletion.text := by
    simpa [seatChoice, seatCompletion] using SaysText.text "Let me see."
  have husage : Reports (seatResponse.read "usage") seatCompletion.counts := by
    constructor <;> simp [seatResponse, seatCompletion]
  exact .choice hchoices (by simp [seatChoice]) htext (by simp [seatChoice, Value.ifNull]) hcalls
    (by simp [seatChoice, seatCompletion]) husage

/-- An event shows what is put into its choice. -/
theorem shows_rawEvent {delta rest : Fields} {reason : Value} {increment : Increment}
    {counts : TokenUsage} {raws : List Value}
    (text : SaysText (delta.value "content") increment.text)
    (made : (delta.value "tool_calls").ifNull (.list []) = .list raws)
    (fragments : List.Forall₂ IsFragment raws increment.fragments)
    (usage : Reports (rest.value "usage") counts) :
    Shows (rawEvent delta rest reason) increment reason counts := by
  have hchoices : (rawEvent delta rest reason).read "choices" =
      .list [rawChoice delta reason] := by
    simp [rawEvent]
  exact .choice hchoices (by simpa [rawChoice] using text) (by simpa [rawChoice] using made)
    fragments (by simp [rawChoice]) (by simpa [rawEvent] using usage)

theorem isFragment_rawFragment {index : Int} {fields : Fields} {call : TextCall}
    (id : (fields.value "id").ifNull (.str "") = .str call.id)
    (name : ((fields.value "function").read "name").ifNull (.str "") = .str call.name)
    (arguments : ((fields.value "function").read "arguments").ifNull (.str "") =
      .str call.arguments) : IsFragment (rawFragment index fields) ⟨some index, call⟩ :=
  ⟨⟨index, rfl, by simp [rawFragment]⟩, by simpa [rawFragment] using id,
    by simpa [rawFragment] using name, by simpa [rawFragment] using arguments⟩

theorem shows_seatEarly :
    List.Forall₂ (fun event increment => Shows event increment .null .unreported) seatEarly
      seatIncrements := by
  have hnone : Reports (Fields.value [] "usage") .unreported := ⟨rfl, rfl, rfl⟩
  refine .cons ?_ (.cons ?_ (.cons ?_ (.cons ?_ .nil)))
  · exact shows_rawEvent (.text "") rfl .nil hnone
  · exact shows_rawEvent (.text "Let ") rfl
      (.cons (isFragment_rawFragment rfl rfl rfl) (.cons (isFragment_rawFragment rfl rfl rfl) .nil))
      hnone
  · exact shows_rawEvent (.text "me ") rfl (.cons (isFragment_rawFragment rfl rfl rfl) .nil) hnone
  · exact shows_rawEvent .nothing rfl
      (.cons (isFragment_rawFragment rfl rfl rfl) (.cons (isFragment_rawFragment rfl rfl rfl) .nil))
      hnone

theorem inStream_seats : seatCompletion.InStream (seatEarly ++ [seatLast]) := by
  have hlast : Shows seatLast ⟨"see.", []⟩ (.str "tool_calls") seatCompletion.counts :=
    shows_rawEvent (.text "see.") rfl .nil ⟨rfl, rfl, rfl⟩
  refine .events shows_seatEarly hlast (by decide) ?_
  refine .cons ?_ (.cons ?_ .nil)
  · exact .fragments rfl rfl (by decide) (by decide) rfl
  · exact .fragments rfl rfl (by decide) (by decide) rfl

/-- A text and two calls with their fragments interleaved are read alike from a response and from a
stream. -/
theorem read_alike_seats :
    ∃ usage single a streamed,
      (Vendor.openAI (.str "OpenAI")).readReply seatResponse = .ok single ∧
      feedEvents (.openAI (.str "OpenAI")) .empty (seatEarly ++ [seatLast]) = .ok a ∧
      a.result = .ok streamed ∧
      seatCompletion.ReadAs seatCompletion.calls usage single ∧
      seatCompletion.ReadAs [⟨"t1", "seats", r#"{"row": 3}"#⟩, ⟨"t2", "now", "{}"⟩]
        usage streamed := by
  rcases read_alike (.str "OpenAI") inResponse_seats inStream_seats with
    ⟨usage, single, a, streamed, -, hread, hfeed, hresult, hsingle, hstreamed, -⟩
  exact ⟨usage, single, a, streamed, hread, hfeed, hresult, hsingle, hstreamed⟩

end Completion

end Parley.Stream.OpenAI
