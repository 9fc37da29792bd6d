import Parley.Proofs.Outcome
import Parley.Proofs.Value.Reading
import Parley.Stream.Accumulator
import Parley.Vendor.Reading

/-!
# Feeding chunks

Taking in a chunk is a sequence of steps, most of which do nothing for any given chunk. This file
says what a step that does nothing looks like, and what is left of the sequence for a chunk that the
readers make.

* `take_toValue`: the steps of a message, by its fields;
* `take_chunk`: the steps of a chunk, by what it is made of;
* `feedEvents`: reading the events of a stream and feeding what they give.
-/

namespace Parley.Stream

/-! ## Steps that do nothing -/

namespace Step

@[simp] theorem skip_andThen (step : Step) : (change id).andThen step = step := rfl

@[simp] theorem andThen_skip (step : Step) : step.andThen (change id) = step := by
  funext a
  unfold andThen
  cases h : step a with
  | mk b outcome =>
    cases outcome with
    | error fault => rfl
    | ok x => rfl

end Step

@[simp] theorem depending_ok {α : Type} (x : α) (next : α → Step) :
    depending (.ok x) next = next x := rfl

/-- A content that counts as nothing is not taken in. -/
theorem takeText_of_falsy {content : Value} (h : content.truthy = false) :
    takeText content = change id := by
  funext a
  simp [takeText, change, h]

@[simp] theorem takeText_null : takeText .null = change id :=
  takeText_of_falsy rfl

@[simp] theorem takeText_empty : takeText (.str "") = change id :=
  takeText_of_falsy rfl

@[simp] theorem takeUsage_null : takeUsage .null = change id := rfl

def remember (key : String) (v : Value) : Step :=
  change fun a => if v.isNull then a else { a with named := Fields.put a.named key v }

@[simp] theorem remember_null (key : String) : remember key .null = change id := rfl

@[simp] theorem takeEnd_false : takeEnd (.bool false) = change id := rfl

theorem resume {a : Accumulator} (h : a.phase = .streaming) :
    { a with phase := .streaming } = a := by
  rw [← h]

/-! ## The steps of a chunk -/

@[simp] theorem get_dict (fields : Fields) (key : String) :
    (Value.dict fields).get key = .ok (fields.value key) := rfl

/-- The steps by which a message is taken in, by its fields. -/
theorem take_toValue (m : Message) {fields : Fields} (h : m.metadata = .dict fields) :
    take m.toValue =
      (takeText m.content).andThen
        ((takeFragments (fields.value "tool_call_indices") 0 m.toolCalls).andThen
          ((takeUsage m.usage).andThen
            ((remember "model" (fields.value "model")).andThen
              ((remember "finish_reason" (fields.value "finish_reason")).andThen
                (takeEnd (.bool (fields.value "is_complete").truthy)))))) := by
  have hcomplete : m.toValue.attr "is_complete" =
      .ok (.bool (fields.value "is_complete").truthy) := by
    rw [Message.attr_isComplete h, Message.isComplete, Message.flag, h, get_dict]
    rfl
  simp only [take, takeCalls, takeNamed, Message.attr_content, Message.attr_metadata,
    Message.attr_toolCalls, Message.attr_usage, depending_ok, h, get_dict, hcomplete]
  rfl

/-- The steps by which a chunk is taken in. The named entries are the model and the finish reason,
of which a chunk brings at most those that are not null. -/
theorem take_chunk (content : Value) (calls : List ToolCall) (indices : Option (List Value))
    (usage : Option TokenUsage) (complete : Bool) (extra : Fields) :
    take (Reply.chunk content calls indices usage complete extra).toValue =
      (takeText content).andThen
        ((takeFragments ((Reply.chunkMetadata complete indices extra).value "tool_call_indices") 0
            (calls.map ToolCall.toValue)).andThen
          ((takeUsage (usageValue usage)).andThen
            ((remember "model" ((Reply.chunkMetadata complete indices extra).value "model")).andThen
              ((remember "finish_reason"
                  ((Reply.chunkMetadata complete indices extra).value "finish_reason")).andThen
                (takeEnd (.bool complete)))))) := by
  -- the flag stands in front of the other entries, so nothing hides it
  have hcomplete : ((Reply.chunkMetadata complete indices extra).value "is_complete").truthy =
      complete := by
    cases indices <;> simp [Reply.chunkMetadata, Value.truthy]
  have htake := take_toValue (Reply.chunk content calls indices usage complete extra) rfl
  rw [hcomplete] at htake
  exact htake

/-- A chunk that brings a text. -/
theorem take_text (content : Value) :
    take (Reply.chunk content [] none none false []).toValue = takeText content := by
  rw [take_chunk]
  simp [Reply.chunkMetadata, Fields.present, takeFragments, usageValue]

/-- A chunk that brings a fragment of a call. -/
theorem take_fragment (index : Value) (fragment : ToolCall) :
    take (Reply.chunk (.str "") [fragment] (some [index]) none false []).toValue =
      takeFragments (.list [index]) 0 [fragment.toValue] := by
  rw [take_chunk]
  simp [Reply.chunkMetadata, Fields.present, usageValue]

/-- A chunk that brings a usage report and the model. -/
theorem take_report (usage : TokenUsage) (model : Value) :
    take (Reply.chunk .null [] none (some usage) false [("model", model)]).toValue =
      (takeUsage usage.toValue).andThen (remember "model" model) := by
  rw [take_chunk]
  cases model <;> simp [Reply.chunkMetadata, Fields.present, takeFragments, usageValue]

/-- A chunk that brings a usage report and the finish reason. -/
theorem take_final (usage : TokenUsage) (reason : Value) :
    take (Reply.chunk .null [] none (some usage) false [("finish_reason", reason)]).toValue =
      (takeUsage usage.toValue).andThen (remember "finish_reason" reason) := by
  rw [take_chunk]
  cases reason <;> simp [Reply.chunkMetadata, Fields.present, takeFragments, usageValue]

/-- A chunk that brings nothing but the end. -/
theorem take_end :
    take (Reply.chunk (.str "") [] none none true []).toValue = takeEnd (.bool true) := by
  rw [take_chunk]
  simp [Reply.chunkMetadata, Fields.present, takeFragments, usageValue]

/-! ## Feeding events -/

def handedOn (reading : Reading) : Value :=
  (reading.chunk?.map Message.toValue).getD .null

/-- Reads an event of a vendor's stream and feeds what it gives. -/
def feedEvent (vendor : Vendor) (a : Accumulator) (event : Value) : Outcome Accumulator := do
  let reading ← vendor.readEvent event
  match feed (handedOn reading) a with
  | (b, .ok ()) => return b
  | (_, .error fault) => .error fault

/-- Reads the events of a vendor's stream, one after another, and feeds what they give. -/
def feedEvents (vendor : Vendor) (a : Accumulator) (events : List Value) : Outcome Accumulator :=
  events.foldlM (feedEvent vendor) a

@[simp] theorem feedEvents_nil (vendor : Vendor) (a : Accumulator) :
    feedEvents vendor a [] = .ok a := rfl

/-- Events are fed one after the other. -/
theorem feedEvents_cons {vendor : Vendor} {a b : Accumulator} {event : Value}
    (h : feedEvent vendor a event = .ok b) (events : List Value) :
    feedEvents vendor a (event :: events) = feedEvents vendor b events := by
  rw [feedEvents, List.foldlM_cons, Outcome.bind_of_ok h, feedEvents]

/-- What is fed later finds what was gathered before. -/
theorem feedEvents_append {vendor : Vendor} {a b : Accumulator} {events : List Value}
    (h : feedEvents vendor a events = .ok b) (later : List Value) :
    feedEvents vendor a (events ++ later) = feedEvents vendor b later := by
  rw [feedEvents, List.foldlM_append]
  exact Outcome.bind_of_ok h

/-- An event that gives nothing leaves a stream as it is, in any phase. -/
theorem feedEvent_of_nothing {vendor : Vendor} {event : Value}
    (h : vendor.readEvent event = .ok .nothing) (a : Accumulator) :
    feedEvent vendor a event = .ok a := by
  rw [feedEvent, Outcome.bind_of_ok h]
  rfl

/-- An event that gives a chunk does to a stream that goes on what its steps do. -/
theorem feedEvent_of_chunk {vendor : Vendor} {event : Value} {m : Message} {a b : Accumulator}
    (h : vendor.readEvent event = .ok (.chunk m)) (ha : a.phase ≠ .completed)
    (hsteps : take m.toValue { a with phase := .streaming } = (b, .ok ())) :
    feedEvent vendor a event = .ok b := by
  have hchunk : (handedOn (.chunk m)).isNull = false := rfl
  -- a completed stream would refuse the chunk
  have hgoing : a.isComplete = false := by
    simpa [Accumulator.isComplete] using ha
  have hfeed : feed (handedOn (.chunk m)) a = (b, .ok ()) := by
    simp only [feed, hchunk, hgoing, Bool.false_eq_true, if_false]
    exact hsteps
  rw [feedEvent, Outcome.bind_of_ok h, hfeed]
  rfl

end Parley.Stream
