import Parley.Proofs.Stream.Parcels

/-!
# The shape of a chunk

Whatever an event is, a chunk that is read of it has a fixed shape, and says that the stream ends
exactly if the event does. Together with the shape of replies this is all that the readers do with
data of any kind, but for token counts that cannot be added.

* `Vendor.SaysEnd`: the events that say that the stream ends;
* `Vendor.ChunkShape`: the shape of a chunk of an event;
* `Vendor.chunkShape_of_readEvent`: every chunk that is read has it;
* `shape_of_anything`: what the readers do with any data;
* `stops_of_huge_count`: a count that stops them.
-/

namespace Parley

open Parley.Stream

/-- What has an item counts as something. -/
theorem Value.truthy_of_item {v w : Value} {position : Nat} (h : v.item position = .ok w) :
    v.truthy = true := by
  cases v with
  | str s =>
    rw [truthy_str]
    rintro rfl
    cases h
  | list items =>
    cases items with
    | nil => cases h
    | cons first rest => rfl
  | object kind fields => rfl
  | _ => cases h

/-- What holds of the first item of a value, of which there is only one. -/
theorem Value.exists_first_iff {v first : Value} {P : Value → Prop} (h : v.item 0 = .ok first) :
    (∃ w, v.item 0 = .ok w ∧ P w) ↔ P first := by
  constructor
  · rintro ⟨w, hw, hholds⟩
    cases h.symm.trans hw
    exact hholds
  · exact fun hholds => ⟨first, h, hholds⟩

/-- What counts as nothing has no first item. -/
theorem Value.not_exists_first {v : Value} {P : Value → Prop} (h : v.truthy = false) :
    ¬∃ w, v.item 0 = .ok w ∧ P w := by
  rintro ⟨w, hw, -⟩
  rw [truthy_of_item hw] at h
  cases h

namespace Vendor

/-- An event that says that the stream ends: by the finish reason of its first choice or candidate,
or by its type. -/
def SaysEnd (vendor : Vendor) (event : Value) : Prop :=
  match vendor with
  | .openAI _ => ∃ choice, (event.read "choices").item 0 = .ok choice ∧
      choice.read "finish_reason" ≠ .null
  | .anthropic => event.read "type" = .str "message_stop"
  | .google _ => ∃ candidate, (event.read "candidates").item 0 = .ok candidate ∧
      Google.finishReasonOf candidate ≠ .null

/-- The indices in a chunk: one for each call, or none at all where calls arrive whole. -/
def IndexShape (vendor : Vendor) (m : Message) : Prop :=
  match vendor with
  | .google _ => m.metadata.get? "tool_call_indices" = .ok none
  | _ => m.toolCalls ≠ [] → ∃ indices, m.metadata.get "tool_call_indices" = .ok (.list indices) ∧
      indices.length = m.toolCalls.length

structure ChunkShape (vendor : Vendor) (event : Value) (m : Message) : Prop extends
    m.Spoken where
  /-- The chunk is marked as one. -/
  marked : m.toValue.attr "is_stream_chunk" = .ok (.bool true)
  indices : vendor.IndexShape m
  /-- The chunk completes the stream exactly if the event says so. -/
  complete : ∃ ends, m.isComplete = .ok ends ∧ (ends = true ↔ vendor.SaysEnd event)

end Vendor

/-! ## Chunks of parcels -/

namespace Stream.Parcel

theorem marked (parcel : Parcel) :
    parcel.toMessage.toValue.attr "is_stream_chunk" = .ok (.bool true) := by
  cases h : parcel.indices <;> simp [toMessage, h] <;> rfl

/-- It lists the indices of its parcel. -/
theorem get_indices (parcel : Parcel) :
    parcel.toMessage.metadata.get "tool_call_indices" = .ok (listed parcel.indices) := by
  have hmetadata : parcel.toMessage.metadata = .dict parcel.metadata := rfl
  rw [hmetadata, get_dict, indices_metadata]

theorem get?_indices {parcel : Parcel} (h : parcel.indices = []) :
    parcel.toMessage.metadata.get? "tool_call_indices" = .ok none := by
  have hnone : parcel.metadata.lookup "tool_call_indices" = none := by
    rw [lookup_metadata, h]
    rfl
  exact congrArg Except.ok hnone

end Stream.Parcel

/-- The chunk of a parcel has the shape of one, if its usage, its indices and its end are those of
the event. -/
theorem Vendor.chunkShape_toMessage {vendor : Vendor} {event : Value} {parcel : Parcel}
    (husage : ∀ u ∈ parcel.usage, u.Known) (hindices : vendor.IndexShape parcel.toMessage)
    (hend : parcel.complete = true ↔ vendor.SaysEnd event) :
    vendor.ChunkShape event parcel.toMessage where
  role := rfl
  toolCallId := rfl
  name := rfl
  usage := eq_null_or_of_usageValue husage
  marked := parcel.marked
  indices := hindices
  complete := ⟨_, parcel.isComplete_toMessage, hend⟩

/-- If every call of a parcel has an index, its chunk lists as many indices as it has calls. -/
theorem Stream.Parcel.aligned {parcel : Parcel}
    (h : parcel.indices.length = parcel.calls.length) :
    parcel.toMessage.toolCalls ≠ [] →
      ∃ indices, parcel.toMessage.metadata.get "tool_call_indices" = .ok (.list indices) ∧
        indices.length = parcel.toMessage.toolCalls.length := by
  intro hcalls
  have hlength : parcel.toMessage.toolCalls.length = parcel.calls.length := List.length_map ..
  refine ⟨parcel.indices, ?_, h.trans hlength.symm⟩
  have hsome : parcel.indices.isEmpty = false := by
    rw [List.isEmpty_eq_false_iff, ← List.length_pos_iff, h, ← hlength, List.length_pos_iff]
    exact hcalls
  rw [parcel.get_indices, listed, hsome]
  rfl

/-! ## Chunks of events -/

namespace OpenAI

/-- There is an index for every raw call. -/
theorem length_indicesFrom (position : Nat) (raws : List Value) :
    (indicesFrom position raws).length = raws.length := by
  induction raws generalizing position with
  | nil => rfl
  | cons raw rest ih => simp [indicesFrom, ih]

/-- What the first vendor's reader hands out is in shape. -/
theorem Hands.chunkShape {label event : Value} {parcel : Parcel} (h : Hands event parcel) :
    (Vendor.openAI label).ChunkShape event parcel.toMessage := by
  cases h with
  | report alone reported =>
    exact Vendor.chunkShape_toMessage (known_of_usageOf reported) (Parcel.aligned rfl)
      (iff_of_false Bool.false_ne_true (Value.not_exists_first alone))
  | choice _ first _ _ reported =>
    refine Vendor.chunkShape_toMessage (known_of_usageOf reported) (Parcel.aligned ?_) ?_
    · simp [choiceParcel, length_indicesFrom]
    · rw [Vendor.SaysEnd, Value.exists_first_iff first]
      simp [choiceParcel, ← Value.isNull_iff]

end OpenAI

namespace Anthropic

/-- What the second vendor's reader hands out is in shape. -/
theorem Hands.chunkShape {event : Value} {parcel : Parcel} (h : Hands event parcel) :
    Vendor.anthropic.ChunkShape event parcel.toMessage := by
  have hopen : ∀ {type : String}, event.read "type" = .str type → type ≠ "message_stop" →
      (false = true ↔ Vendor.anthropic.SaysEnd event) := by
    intro type htype hne
    simp [Vendor.SaysEnd, htype, hne]
  cases h with
  | start type reported =>
    exact Vendor.chunkShape_toMessage (known_of_usageOf reported) (Parcel.aligned rfl)
      (hopen type (by decide))
  | opens type =>
    exact Vendor.chunkShape_toMessage (by simp) (Parcel.aligned rfl) (hopen type (by decide))
  | text type =>
    exact Vendor.chunkShape_toMessage (by simp) (Parcel.aligned rfl) (hopen type (by decide))
  | fragment type =>
    exact Vendor.chunkShape_toMessage (by simp) (Parcel.aligned rfl) (hopen type (by decide))
  | final type reported =>
    exact Vendor.chunkShape_toMessage (known_of_usageOf reported) (Parcel.aligned rfl)
      (hopen type (by decide))
  | stop type =>
    exact Vendor.chunkShape_toMessage (by simp) (Parcel.aligned rfl) ⟨fun _ => type, fun _ => rfl⟩

end Anthropic

namespace Google

/-- What the third vendor's reader hands out is in shape. -/
theorem Hands.chunkShape {tag : String} {event : Value} {parcel : Parcel}
    (h : Hands tag event parcel) : (Vendor.google tag).ChunkShape event parcel.toMessage := by
  cases h with
  | report alone reported =>
    exact Vendor.chunkShape_toMessage (known_of_usageOf reported) (Parcel.get?_indices rfl)
      (iff_of_false Bool.false_ne_true (Value.not_exists_first alone))
  | candidate _ first _ reported =>
    refine Vendor.chunkShape_toMessage (known_of_usageOf reported) (Parcel.get?_indices rfl) ?_
    rw [Vendor.SaysEnd, Value.exists_first_iff first]
    simp [candidateParcel, ← Value.isNull_iff]

end Google

/-- Whatever an event is, a chunk that is read of it has the shape of one. -/
theorem Vendor.chunkShape_of_readEvent {vendor : Vendor} {event : Value} {m : Message}
    (h : vendor.readEvent event = .ok (.chunk m)) : vendor.ChunkShape event m := by
  rcases hands_of_readEvent h with ⟨parcel, hands, rfl⟩
  cases vendor with
  | openAI label => exact OpenAI.Hands.chunkShape hands
  | anthropic => exact Anthropic.Hands.chunkShape hands
  | google tag => exact Google.Hands.chunkShape hands

/-! ## Any data -/

/-- Whatever is read as a response gives a reply of its shape or a fault of the reply, and whatever
is read as an event gives a chunk of its shape, or nothing, or is skipped. The only exception are
token counts without a sum: a response with such counts may stop the reader, and an event with such
counts always does. -/
theorem shape_of_anything (vendor : Vendor) (raw : Value) :
    ((∃ m, vendor.readReply raw = .ok m ∧ vendor.ReplyShape raw m) ∨
      (∃ fault, vendor.readReply raw = .error (.invalidReply fault)) ∨
        vendor.ReplyOverflows raw ∧ vendor.readReply raw = misuse .range) ∧
    ((¬vendor.EventOverflows raw ∧ ∃ reading, vendor.readEvent raw = .ok reading ∧
        ∀ m ∈ reading.chunk?, vendor.ChunkShape raw m) ∨
      vendor.EventOverflows raw ∧ vendor.readEvent raw = misuse .range) := by
  constructor
  · rcases vendor.readReply_cases raw with ⟨m, hm⟩ | hrest
    · exact .inl ⟨m, hm, Vendor.replyShape_of_readReply hm⟩
    · exact .inr hrest
  · by_cases hoverflows : vendor.EventOverflows raw
    · exact .inr ⟨hoverflows, Vendor.readEvent_eq_range_iff.2 hoverflows⟩
    · obtain ⟨reading, hread⟩ := Vendor.exists_reading_iff.2 hoverflows
      refine .inl ⟨hoverflows, reading, hread, ?_⟩
      intro m hm
      cases reading with
      | chunk chunk =>
        cases hm
        exact Vendor.chunkShape_of_readEvent hread
      | nothing => cases hm
      | malformed => cases hm

def reporting (choices : List Value) (prompt completion : Value) : Value :=
  .dict [("choices", .list choices),
    ("usage", .dict [("prompt_tokens", prompt), ("completion_tokens", completion)])]

def greeting : Value :=
  .dict [("message", .dict [("content", .str "Hi")])]

theorem replyOf_greeting (vendor : Vendor) (prompt completion : Value) :
    OpenAI.replyOf vendor (reporting [greeting] prompt completion) =
      (do
        let usage ← OpenAI.usageOf (reporting [greeting] prompt completion)
        return Reply.message "Hi" [] usage .null .null) :=
  rfl

/-- An integer and a floating-point number as counts stop the readers if the integer is huge. -/
theorem stops_of_huge_count :
    (Vendor.openAI (.str "openai")).readEvent
        (reporting [] (.int (10 ^ 309)) (.float ⟨0x3fe0000000000000⟩)) = misuse .range ∧
      (Vendor.openAI (.str "openai")).readReply
        (reporting [greeting] (.int (10 ^ 309)) (.float ⟨0x3fe0000000000000⟩)) =
          misuse .range := by
  have hhuge : (Value.int (10 ^ 309)).Huge := ⟨_, rfl, by decide +kernel⟩
  have hoverflows : ∀ choices,
      OpenAI.Overflows (reporting choices (.int (10 ^ 309)) (.float ⟨0x3fe0000000000000⟩)) :=
    fun choices => ⟨rfl, .inl ⟨hhuge, rfl⟩⟩
  constructor
  · exact Vendor.readEvent_eq_range_iff.2 (hoverflows [])
  · rw [Vendor.readReply, replyOf_greeting, OpenAI.usageOf_eq_range_iff.2 (hoverflows _)]
    rfl

end Parley
