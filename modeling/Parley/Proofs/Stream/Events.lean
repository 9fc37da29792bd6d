import Parley.Proofs.Stream.Meaning

/-!
# Events and what they bring

An event of a vendor's stream is read as a chunk, or as nothing if it brings nothing. This file
connects the readers' chunks with deltas, so that a stream of events is followed by what its events
bring.

* `brings_chunk`: what a chunk of a reader brings, by the parts that it is made of;
* `Reads`: an event is read as a chunk that brings a delta, or as nothing;
* `holds_feedEvent`, `holds_feedEach`: an event, and a run of events, add what they bring.
-/

namespace Parley.Stream

/-- A chunk of a reader brings the parts that it is made of. -/
theorem brings_chunk (delta : Delta) {content : Value} {indices : Option (List Value)}
    {extra : Fields} (hcontent : content = .str delta.text ∨ (content = .null ∧ delta.text = ""))
    (hindices : (indices = none ∧ delta.indices = []) ∨ indices = some (delta.indices.map .int))
    (hcounted : ∀ u ∈ delta.usage, u.Counted) (hkeys : (extra.map Prod.fst).Nodup)
    (hunlisted : extra.value "tool_call_indices" = .null)
    (hmodel : extra.value "model" = delta.model)
    (hreason : extra.value "finish_reason" = delta.finishReason) :
    Brings (Reply.chunk content (delta.calls.map TextCall.toCall) indices delta.usage
      delta.complete extra) delta where
  content := hcontent
  toolCalls := by simp [Reply.chunk, Function.comp_def, TextCall.toValue]
  usage := rfl
  counted := hcounted
  metadata := by
    refine ⟨Reply.chunkMetadata delta.complete indices extra, rfl, ?_⟩
    rw [← Fields.value_present hkeys] at hunlisted hmodel hreason
    rcases hindices with ⟨rfl, hnone⟩ | rfl
    · exact
        { indices := .inl ⟨by simpa [Reply.chunkMetadata] using hunlisted, hnone⟩
          model := by simpa [Reply.chunkMetadata] using hmodel
          finishReason := by simpa [Reply.chunkMetadata] using hreason
          complete := by simp [Reply.chunkMetadata, Value.truthy] }
    · exact
        { indices := .inr (by simp [Reply.chunkMetadata])
          model := by simpa [Reply.chunkMetadata] using hmodel
          finishReason := by simpa [Reply.chunkMetadata] using hreason
          complete := by simp [Reply.chunkMetadata, Value.truthy] }

/-! ## Reading and feeding events -/

/-- What an event brings: it is read as a chunk that brings it, or as nothing if it is nothing. -/
inductive Reads (vendor : Vendor) (event : Value) (delta : Delta) : Prop where
  | chunk {m : Message} (read : vendor.readEvent event = .ok (.chunk m)) (brings : Brings m delta)
  | nothing (read : vendor.readEvent event = .ok .nothing) (blank : delta.Blank)

/-- Reads events, each for a vendor, one after another, and feeds what they give. -/
def feedEach (a : Accumulator) (events : List (Vendor × Value)) : Outcome Accumulator :=
  events.foldlM (fun a event => feedEvent event.1 a event.2) a

/-- Events of one vendor are events of any vendors. -/
theorem feedEvents_eq (vendor : Vendor) (a : Accumulator) (events : List Value) :
    feedEvents vendor a events = feedEach a (events.map fun event => (vendor, event)) := by
  rw [feedEach, List.foldlM_map, feedEvents]

/-- An event feeds the chunk that its reading hands on. -/
theorem feedEvent_of_reading {vendor : Vendor} {event : Value} {reading : Reading}
    (h : vendor.readEvent event = .ok reading) (a : Accumulator) :
    feedEvent vendor a event = feedChunk a (handedOn reading) := by
  rw [feedEvent, Outcome.bind_of_ok h]
  rfl

/-- What brings nothing leaves what an accumulator holds. -/
theorem Holds.skip {a : Accumulator} {deltas : List Delta} {delta : Delta} (h : Holds a deltas)
    (hblank : delta.Blank) : Holds a (deltas ++ [delta]) where
  complete := by simp [h.complete, hblank.complete]
  texts := by simp [h.texts, hblank.text, keep]
  calls := by simpa [Delta.fragments, Delta.fragmentsFrom, hblank.calls] using h.calls
  usage := by simpa [hblank.usage] using h.usage
  named := by
    intro key
    rw [h.named, named_append]
    simp [hblank.model, hblank.finishReason]

/-- An event adds what it brings to what an accumulator holds. -/
theorem holds_feedEvent {vendor : Vendor} {event : Value} {delta : Delta} {a : Accumulator}
    {deltas : List Delta} (h : Reads vendor event delta) (ha : Holds a deltas)
    (hopen : a.isComplete = false) :
    ∃ b, feedEvent vendor a event = .ok b ∧ Holds b (deltas ++ [delta]) := by
  cases h with
  | chunk read brings =>
    rw [feedEvent_of_reading read]
    exact holds_feedChunk ha hopen brings
  | nothing read blank =>
    -- null is fed, which is skipped
    rw [feedEvent_of_reading read]
    exact ⟨a, rfl, ha.skip blank⟩

/-- Events add what they bring to what an accumulator holds, if none before the last ends the
stream. -/
theorem holds_feedEach {events : List (Vendor × Value)} {deltas before : List Delta}
    {a : Accumulator}
    (h : List.Forall₂ (fun event delta => Reads event.1 event.2 delta) events deltas)
    (ha : Holds a before) (hopen : ∀ delta ∈ (before ++ deltas).dropLast, delta.complete = false) :
    ∃ b, feedEach a events = .ok b ∧ Holds b (before ++ deltas) := by
  induction h generalizing a before with
  | nil => exact ⟨a, rfl, by simpa using ha⟩
  | @cons event delta events deltas hevent _ ih =>
    have hgoing : a.isComplete = false := ha.isComplete_of_open (by simpa using hopen)
    rcases holds_feedEvent hevent ha hgoing with ⟨b, hfirst, hb⟩
    rcases ih hb (by simpa using hopen) with ⟨c, hlater, hc⟩
    refine ⟨c, ?_, by simpa using hc⟩
    rw [feedEach, List.foldlM_cons, Outcome.bind_of_ok hfirst]
    exact hlater

/-- Events, of which none before the last ends the stream, make up a message by what they bring. -/
theorem makesUp_of_reads {events : List (Vendor × Value)} {deltas : List Delta}
    (h : List.Forall₂ (fun event delta => Reads event.1 event.2 delta) events deltas)
    (hopen : ∀ delta ∈ deltas.dropLast, delta.complete = false) :
    ∃ a m, feedEach .empty events = .ok a ∧ a.result = .ok m ∧ MakesUp m deltas := by
  rcases holds_feedEach h holds_empty (by simpa using hopen) with ⟨a, hfeed, ha⟩
  rcases makesUp_of_holds ha with ⟨m, hresult, hm⟩
  exact ⟨a, m, hfeed, hresult, hm⟩

end Parley.Stream
