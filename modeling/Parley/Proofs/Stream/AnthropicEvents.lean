import Parley.Proofs.Reply.Anthropic
import Parley.Proofs.Stream.Fragments

/-!
# Events of the messages service

The raw events of a streamed reply, by the fields that make them what they are, and what feeding
each of them does to an accumulator that goes on. Events of any other type are bookkeeping and do
nothing.
-/

namespace Parley.Stream.Anthropic

open Parley.Anthropic

/-! ## The forms of events -/

def carryingTypes : List String :=
  ["message_start", "content_block_start", "content_block_delta", "message_delta", "message_stop"]

/-- Whether an event is of a type that carries something. The end of a block, a ping and types that
are not known are not. -/
def carries (event : Value) : Bool :=
  carryingTypes.any fun type => (event.read "type").isText type

/-- The start of a message with its model and token counts, the count of output being
provisional. -/
structure Starts (event model : Value) (input provisional : Int) : Prop where
  type : event.read "type" = .str "message_start"
  model : (event.read "message").read "model" = model
  input : ((event.read "message").read "usage").read "input_tokens" = .int input
  output : ((event.read "message").read "usage").read "output_tokens" = .int provisional

/-- The opening of a text block, which brings no text yet. -/
structure OpensText (event : Value) (index : Nat) : Prop where
  type : event.read "type" = .str "content_block_start"
  index : event.read "index" = .int index
  block : (event.read "content_block").read "type" = .str "text"
  text : ((event.read "content_block").read "text").ifNull (.str "") = .str ""

structure OpensTool (event : Value) (index : Nat) (id name : String) : Prop where
  type : event.read "type" = .str "content_block_start"
  index : event.read "index" = .int index
  block : (event.read "content_block").read "type" = .str "tool_use"
  called : (event.read "content_block").read "id" = .str id
  identified : id ≠ ""
  function : (event.read "content_block").read "name" = .str name
  named : name ≠ ""

structure AddsText (event : Value) (index : Nat) (piece : String) : Prop where
  type : event.read "type" = .str "content_block_delta"
  index : event.read "index" = .int index
  delta : (event.read "delta").read "type" = .str "text_delta"
  text : (event.read "delta").read "text" = .str piece

/-- A piece of the argument text of a block. -/
structure AddsInput (event : Value) (index : Nat) (piece : String) : Prop where
  type : event.read "type" = .str "content_block_delta"
  index : event.read "index" = .int index
  delta : (event.read "delta").read "type" = .str "input_json_delta"
  json : (event.read "delta").read "partial_json" = .str piece

/-- The report of the stop reason and the final count of output. The count of input may be
repeated. -/
structure Finishes (event : Value) (reason : String) (input output : Int) : Prop where
  type : event.read "type" = .str "message_delta"
  reason : (event.read "delta").read "stop_reason" = .str reason
  input : (event.read "usage").read "input_tokens" = .null ∨
    (event.read "usage").read "input_tokens" = .int input
  output : (event.read "usage").read "output_tokens" = .int output

structure Ends (event : Value) : Prop where
  type : event.read "type" = .str "message_stop"

/-! ## Events in plain form -/

def opening (index : Nat) (block : Fields) : Value :=
  .dict [("type", .str "content_block_start"), ("index", .int index),
    ("content_block", .dict block)]

def textDelta (index : Nat) (piece : String) : Value :=
  .dict [("type", .str "content_block_delta"), ("index", .int index),
    ("delta", .dict [("type", .str "text_delta"), ("text", .str piece)])]

def inputDelta (index : Nat) (piece : String) : Value :=
  .dict [("type", .str "content_block_delta"), ("index", .int index),
    ("delta", .dict [("type", .str "input_json_delta"), ("partial_json", .str piece)])]

/-- An event that opens a block of text opens one. -/
theorem opensText_opening (index : Nat) :
    OpensText (opening index [("type", .str "text"), ("text", .str "")]) index :=
  ⟨by simp [opening], by simp [opening], by simp [opening], by simp [opening, Value.ifNull]⟩

/-- An event that opens a block of a tool opens one, with its id and its name. -/
theorem opensTool_opening (index : Nat) {id name : String} (hid : id ≠ "") (hname : name ≠ "") :
    OpensTool (opening index [("type", .str "tool_use"), ("id", .str id), ("name", .str name)])
      index id name :=
  ⟨by simp [opening], by simp [opening], by simp [opening], by simp [opening], hid,
    by simp [opening], hname⟩

theorem addsText_textDelta (index : Nat) (piece : String) :
    AddsText (textDelta index piece) index piece :=
  ⟨by simp [textDelta], by simp [textDelta], by simp [textDelta], by simp [textDelta]⟩

theorem addsInput_inputDelta (index : Nat) (piece : String) :
    AddsInput (inputDelta index piece) index piece :=
  ⟨by simp [inputDelta], by simp [inputDelta], by simp [inputDelta], by simp [inputDelta]⟩

/-! ## Reading them -/

section Reading

variable {event : Value} {index : Nat}

/-- Bookkeeping carries nothing. -/
theorem chunkOf_of_not_carries (h : carries event = false) : chunkOf event = .ok none := by
  simp only [carries, carryingTypes, List.any_cons, List.any_nil, Bool.or_false,
    Bool.or_eq_false_iff] at h
  obtain ⟨hstart, hopen, hdelta, hfinal, hstop⟩ := h
  simp only [chunkOf, hstart, hopen, hdelta, hfinal, hstop, Bool.false_eq_true, if_false]

theorem blockIndex_eq (h : event.read "index" = .int index) : blockIndex event = [.int index] := by
  rw [blockIndex, Value.field_singleton, h]
  rfl

/-- The opening of a tool's block is the first fragment of a call. -/
theorem chunkOf_opensTool {id name : String} (h : OpensTool event index id name) :
    chunkOf event = .ok (some (Reply.chunk (.str "") [⟨.str id, .str name, .str ""⟩]
      (some [.int index]) none false [])) := by
  have hid : (Value.str id).truthy = true := Value.truthy_str.2 h.identified
  have hname : (Value.str name).truthy = true := Value.truthy_str.2 h.named
  simp [chunkOf, blockChunk, h.type, h.block, h.called, h.function, hid, hname,
    blockIndex_eq h.index, Value.isText]

/-- A piece of text is a chunk with that content. -/
theorem chunkOf_addsText {piece : String} (h : AddsText event index piece) :
    chunkOf event = .ok (some (Reply.chunk (.str piece) [] none none false [])) := by
  simp [chunkOf, deltaChunk, h.type, h.delta, h.text, Value.isText]

/-- A piece of input is a fragment of the call of its block. -/
theorem chunkOf_addsInput {piece : String} (h : AddsInput event index piece) (hpiece : piece ≠ "") :
    chunkOf event = .ok (some (Reply.chunk (.str "") [⟨.str "", .str "", .str piece⟩]
      (some [.int index]) none false [])) := by
  have htruthy : (Value.str piece).truthy = true := Value.truthy_str.2 hpiece
  simp [chunkOf, deltaChunk, h.type, h.delta, Value.field_singleton, h.json, htruthy,
    blockIndex_eq h.index, Value.isText, Value.ifNull]

/-- An empty piece of an argument text gives no chunk at all. -/
theorem chunkOf_addsNoInput (h : AddsInput event index "") : chunkOf event = .ok none := by
  simp [chunkOf, deltaChunk, h.type, h.delta, Value.field_singleton, h.json, Value.isText,
    Value.ifNull]

/-- The end of a message completes the stream. -/
theorem chunkOf_ends (h : Ends event) :
    chunkOf event = .ok (some (Reply.chunk (.str "") [] none none true [])) := by
  simp [chunkOf, h.type, Value.isText]

end Reading

/-! ## Feeding them -/

/-- An event without a chunk leaves what was gathered. -/
theorem feedEvent_of_none {event : Value} (h : chunkOf event = .ok none) (a : Accumulator) :
    feedEvent .anthropic a event = .ok a := by
  have hread : Vendor.anthropic.readEvent event = .ok .nothing := by
    rw [Vendor.readEvent, h]
    rfl
  exact feedEvent_of_nothing hread a

/-- An event with a chunk takes the chunk in, as long as the stream is not complete. -/
theorem feedEvent_of_some {event : Value} {m : Message} {a b : Accumulator}
    (h : chunkOf event = .ok (some m)) (ha : a.phase ≠ .completed)
    (hsteps : take m.toValue { a with phase := .streaming } = (b, .ok ())) :
    feedEvent .anthropic a event = .ok b := by
  have hread : Vendor.anthropic.readEvent event = .ok (.chunk m) := by
    rw [Vendor.readEvent, h]
    rfl
  exact feedEvent_of_chunk hread ha hsteps

/-- Bookkeeping does nothing, not even to a stream that is over. -/
theorem feedEvent_of_not_carries {event : Value} (h : carries event = false) (a : Accumulator) :
    feedEvent .anthropic a event = .ok a :=
  feedEvent_of_none (chunkOf_of_not_carries h) a

/-- Leaving out the bookkeeping changes nothing. -/
theorem feedEvents_filter (a : Accumulator) (events : List Value) :
    feedEvents .anthropic a (events.filter carries) = feedEvents .anthropic a events := by
  induction events generalizing a with
  | nil => rfl
  | cons event rest ih =>
    cases hcarries : carries event with
    | false =>
      rw [List.filter_cons_of_neg (by simp [hcarries]), ih,
        feedEvents_cons (feedEvent_of_not_carries hcarries a)]
    | true =>
      rw [List.filter_cons_of_pos hcarries]
      simp only [feedEvents, List.foldlM_cons] at ih ⊢
      -- an event that carries something is fed on both sides, and may fail on both
      cases hfed : feedEvent .anthropic a event with
      | error fault => rfl
      | ok b => exact ih b

variable {a : Accumulator} {event : Value} {index : Nat}

def counts (input output : Int) : TokenUsage :=
  ⟨.int input, .int output, .int (input + output)⟩

theorem usageOf_counts {usage : Value} {input output : Int}
    (hinput : usage.read "input_tokens" = .int input)
    (houtput : usage.read "output_tokens" = .int output) :
    usageOf usage = .ok (some (counts input output)) := by
  rw [usageOf_eq, hinput, houtput]
  rfl

/-- The start of a message brings the model and the first counts. -/
theorem feedEvent_starts {model : Value} {input provisional : Int}
    (h : Starts event model input provisional) :
    feedEvent .anthropic .empty event = .ok
      { phase := .streaming, usage := (counts input provisional).toValue,
        named := if model.isNull then [] else [("model", model)] } := by
  have husage := usageOf_counts h.input h.output
  have hchunk : chunkOf event = .ok (some (Reply.chunk .null [] none
      (some (counts input provisional)) false [("model", model)])) := by
    have htype : (event.read "type").isText "message_start" = true := by simp [h.type]
    simp only [chunkOf, htype, if_true, startChunk]
    rw [Outcome.bind_of_ok husage, h.model]
    rfl
  refine feedEvent_of_some hchunk (by simp [Accumulator.empty]) ?_
  rw [take_report]
  cases model <;> rfl

/-- The opening of a block of text brings nothing. -/
theorem feedEvent_opensText (h : OpensText event index) (a : Accumulator) :
    feedEvent .anthropic a event = .ok a := by
  refine feedEvent_of_none ?_ a
  simp [chunkOf, blockChunk, h.type, h.block, Value.isText]

/-- An opening of a tool block starts a call behind those of the blocks before. -/
theorem feedEvent_opensTool {id name : String} (h : OpensTool event index id name)
    (ha : a.phase = .streaming)
    (hnew : ∀ c ∈ a.calls, c.1.same (.block (.int index)) = false) :
    feedEvent .anthropic a event =
      .ok { a with calls := a.calls ++ [pending index id name []] } := by
  refine feedEvent_of_some (chunkOf_opensTool h) (by simp [ha]) ?_
  rw [resume ha, take_fragment, takeFragments_indexed, mergeFragment_of_new _ hnew]
  rfl

/-- A piece of text is added to the texts. -/
theorem feedEvent_addsText {piece : String} (h : AddsText event index piece)
    (ha : a.phase = .streaming) :
    feedEvent .anthropic a event = .ok { a with texts := a.texts ++ (keep piece).map .str } := by
  refine feedEvent_of_some (chunkOf_addsText h) (by simp [ha]) ?_
  rw [resume ha, take_text]
  by_cases hpiece : piece = "" <;> simp [takeText, change, keep, hpiece]

/-- A piece of an argument text extends the call of the block that is open. -/
theorem feedEvent_addsInput {id name piece : String} {fragments : List String}
    {before : List (CallKey × PendingCall)} (h : AddsInput event index piece)
    (ha : a.phase = .streaming) (hcalls : a.calls = before ++ [pending index id name fragments])
    (hbefore : ∀ c ∈ before, c.1.same (.block (.int index)) = false) :
    feedEvent .anthropic a event =
      .ok { a with calls := before ++ [pending index id name (fragments ++ keep piece)] } := by
  by_cases hpiece : piece = ""
  · subst hpiece
    rw [feedEvent_of_none (chunkOf_addsNoInput h)]
    simp [keep, ← hcalls]
  · refine feedEvent_of_some (chunkOf_addsInput h hpiece) (by simp [ha]) ?_
    have hkey : (CallKey.block (.int index)).same (.block (.int index)) = true := by
      simp [CallKey.same, same_int]
    rw [resume ha, take_fragment, takeFragments_indexed, hcalls, pending,
      mergeFragment_of_last _ hkey hbefore, extend_pending]
    rfl

/-- The last report replaces the provisional count of output and keeps that of input. -/
theorem feedEvent_finishes {reason : String} {input provisional output : Int}
    (h : Finishes event reason input output) (ha : a.phase = .streaming)
    (husage : a.usage = (counts input provisional).toValue) :
    feedEvent .anthropic a event = .ok { a with
      usage := (counts input output).toValue
      named := Fields.put a.named "finish_reason" (.str reason) } := by
  have hreport : ∃ usage, usageOf (event.read "usage") = .ok (some usage) ∧
      mergeUsage (counts input provisional).toValue usage.toValue =
        .ok (counts input output).toValue := by
    -- the count of input may be left out at the end; then that of the start stays
    rcases h.input with hinput | hinput
    · refine ⟨⟨.null, .int output, .null⟩, ?_, rfl⟩
      rw [usageOf_eq, hinput, h.output]
      rfl
    · exact ⟨counts input output, usageOf_counts hinput h.output, rfl⟩
  obtain ⟨usage, hread, hmerge⟩ := hreport
  have hchunk : chunkOf event = .ok (some (Reply.chunk .null [] none (some usage) false
      [("finish_reason", .str reason)])) := by
    have htype : ∀ type : String, (event.read "type").isText type = ("message_delta" == type) := by
      simp [h.type, Value.isText]
    simp only [chunkOf, htype, finalChunk]
    rw [Outcome.bind_of_ok hread]
    simp [h.reason]
    rfl
  refine feedEvent_of_some hchunk (by simp [ha]) ?_
  rw [resume ha, take_final]
  simp only [Step.andThen, takeUsage, husage, hmerge]
  rfl

/-- The end completes the stream, if its texts are texts. -/
theorem feedEvent_ends {texts : List String} (h : Ends event) (ha : a.phase = .streaming)
    (htexts : a.texts = texts.map .str) :
    feedEvent .anthropic a event = .ok { a with phase := .completed } := by
  -- completing joins the texts, which is what could fail
  have hjoin : Value.joinTexts a.texts = .ok (String.join texts) := by
    rw [htexts, Value.joinTexts_map_str]
  refine feedEvent_of_some (chunkOf_ends h) (by simp [ha]) ?_
  rw [resume ha, take_end]
  simp [takeEnd, Value.truthy, Step.andThen, change, Accumulator.text, hjoin, depending]

end Parley.Stream.Anthropic
