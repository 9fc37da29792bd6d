import Parley.Proofs.Reply.Reading
import Parley.Proofs.Reply.Shape
import Parley.Proofs.Stream.Assembly

/-!
# What the readers hand on

The readers of events examine the parts of an event as far as they have to look into them, and hand
on the rest as it came. An event with an examined part of the wrong kind is skipped. This file says
which parts are not examined, and what a chunk is made of if those are what they are meant to be.

* `Vendor.Hands`: the parcels that an event can hand on, one case for each kind of event;
* `Vendor.hands_of_readEvent`: every chunk of a reader is that of such a parcel;
* `Vendor.Typed`: the unexamined parts of an event are of the right kinds;
* `Vendor.parcel_of_readEvent`: the parcel is then as it is meant to be;
* `Vendor.exists_reading`: an event with the unexamined parts of the right kinds never stops a
  reader.
-/

namespace Parley

namespace Value

theorem IsPiece.ifNull {v alternative : Value} (h : v.IsPiece) (ha : alternative.IsPiece) :
    (v.ifNull alternative).IsPiece := by
  unfold Value.ifNull
  split
  · exact ha
  · exact h

/-- What is a text where it counts as something is a piece of one. -/
theorem isPiece_of_ifNull {v alternative : Value} {s : String}
    (h : v.ifNull alternative = .str s) : v.IsPiece := by
  intro htruthy
  cases v with
  | null => cases htruthy
  | _ => exact ⟨s, h⟩

theorem isPiece_str (s : String) : (Value.str s).IsPiece :=
  fun _ => ⟨s, rfl⟩

theorem not_isFloat_of_isCount {v : Value} (h : v.IsCount) : v.isFloat = false := by
  rcases h with rfl | ⟨n, rfl⟩ <;> rfl

theorem hashable_ifNull {v alternative : Value} (h : v.hashable = true)
    (ha : alternative.hashable = true) : (v.ifNull alternative).hashable = true := by
  unfold Value.ifNull
  split
  · exact ha
  · exact h

end Value

/-- Numbers always have a sum. -/
theorem TokenUsage.not_overflows {prompt completion total : Value} (hprompt : prompt.IsCount)
    (hcompletion : completion.IsCount) : ¬Overflows prompt completion total := by
  rintro ⟨-, ⟨-, hfloat⟩ | ⟨hfloat, -⟩⟩
  · rw [Value.not_isFloat_of_isCount hcompletion] at hfloat
    cases hfloat
  · rw [Value.not_isFloat_of_isCount hprompt] at hfloat
    cases hfloat

namespace Stream

/-! ## Parcels of the right kinds -/

/-- A parcel whose parts are what they are meant to be: its pieces texts, its indices keys, its
counts integers. -/
structure Parcel.Sound (parcel : Parcel) : Prop where
  content : parcel.content.IsPiece
  arguments : ∀ call ∈ parcel.calls, call.arguments.IsPiece
  indices : ∀ index ∈ parcel.indices, index.hashable = true
  usage : ∀ u ∈ parcel.usage, u.Counted

/-- The indices of a sound parcel can be keys. -/
theorem Parcel.Sound.keyed {parcel : Parcel} (h : parcel.Sound) : parcel.Keyed := by
  intro f hf index hindex
  rcases List.mem_map.1 hf with ⟨c, -, rfl⟩
  exact h.indices index (List.mem_of_getElem? hindex)

/-- Parcels of the right kinds can be put together, whatever they are. -/
theorem assemblable_of_sound {parcels : List Parcel} (h : ∀ parcel ∈ parcels, parcel.Sound) :
    Assemblable parcels where
  texts := fun parcel hparcel => (h parcel hparcel).content
  arguments := fun parcel hparcel => (h parcel hparcel).arguments
  keyed := fun parcel hparcel => (h parcel hparcel).keyed
  usage := by
    have hcounted : ∀ u ∈ parcels.filterMap Parcel.usage, u.Counted := by
      intro u hu
      rcases List.mem_filterMap.1 hu with ⟨parcel, hparcel, hreport⟩
      exact (h parcel hparcel).usage u hreport
    rcases TokenUsage.exists_mergeAll hcounted with ⟨total, htotal, -⟩
    exact ⟨total, htotal⟩

end Stream

open Parley.Stream

/-! ## Chat completions -/

namespace OpenAI

/-- An entry of the call list in an event. -/
inductive HasFragment (event raw : Value) : Prop where
  | entry {choice : Value} {raws : List Value} (first : (event.read "choices").item 0 = .ok choice)
      (calls : ((choice.read "delta").field ["tool_calls"] (.list [])).items = .ok raws)
      (mem : raw ∈ raws)

/-- The parts of an event that are handed on unexamined are what they are meant to be. -/
structure Typed (event : Value) : Prop where
  prompt : ((event.read "usage").read "prompt_tokens").IsCount
  completion : ((event.read "usage").read "completion_tokens").IsCount
  total : ((event.read "usage").read "total_tokens").IsCount
  arguments : ∀ raw, HasFragment event raw → ((raw.read "function").read "arguments").IsPiece
  index : ∀ raw, HasFragment event raw → (raw.read "index").hashable = true

/-- In a typed event the usage is counted. -/
theorem Typed.exists_usageOf {event : Value} (h : Typed event) :
    ∃ reported, usageOf event = .ok reported ∧ ∀ u ∈ reported, u.Counted := by
  rw [usageOf_eq]
  exact TokenUsage.exists_report h.prompt h.completion h.total

/-- An index that is read can be a key if the one that is given can. -/
theorem hashable_of_mem_indicesFrom {raws : List Value} {position : Nat} {index : Value}
    (h : ∀ raw ∈ raws, (raw.read "index").hashable = true)
    (hindex : index ∈ indicesFrom position raws) : index.hashable = true := by
  induction raws generalizing position with
  | nil => cases hindex
  | cons raw rest ih =>
    rcases List.mem_cons.1 hindex with rfl | hrest
    · rw [Value.field_singleton]
      exact Value.hashable_ifNull (h raw (by simp)) rfl
    · exact ih (fun r hr => h r (by simp [hr])) hrest

/-- The parcel of a choice: a text, call fragments, a token report and the reason to finish, which
makes it the end unless it is null. -/
def choiceParcel (text : String) (raws : List Value) (usage : Option TokenUsage) (reason : Value) :
    Parcel where
  content := .str text
  calls := raws.map fragmentOf
  indices := indicesFrom 0 raws
  usage := usage
  complete := !reason.isNull
  extra := [("finish_reason", reason)]

/-- The parcel of a choice is the chunk that the reader makes. -/
theorem toMessage_choiceParcel (text : String) (raws : List Value) (usage : Option TokenUsage)
    (reason : Value) :
    (choiceParcel text raws usage reason).toMessage =
      Reply.chunk (.str text) (raws.map fragmentOf)
        (if raws.isEmpty then none else some (indicesFrom 0 raws)) usage (!reason.isNull)
        [("finish_reason", reason)] := by
  cases raws <;> rfl

/-- It is sound if its parts are typed. -/
theorem sound_choiceParcel {text : String} {raws : List Value} {usage : Option TokenUsage}
    {reason : Value} (hcounted : ∀ u ∈ usage, u.Counted)
    (harguments : ∀ raw ∈ raws, ((raw.read "function").read "arguments").IsPiece)
    (hindices : ∀ raw ∈ raws, (raw.read "index").hashable = true) :
    (choiceParcel text raws usage reason).Sound where
  content := Value.isPiece_str text
  arguments := by
    intro call hcall
    rcases List.mem_map.1 hcall with ⟨raw, hraw, rfl⟩
    have hpiece := (harguments raw hraw).ifNull (Value.isPiece_str "")
    simpa only [fragmentOf, Value.field_singleton] using hpiece
  indices := by
    intro index hindex
    exact hashable_of_mem_indicesFrom hindices hindex
  usage := hcounted

/-- The parcels that an event can hand on: that of a report that stands alone, and that of the first
choice. -/
inductive Hands (event : Value) : Parcel → Prop where
  | report {u : TokenUsage} (alone : (event.read "choices").truthy = false)
      (reported : usageOf event = .ok (some u)) :
      Hands event { usage := some u, extra := [("model", event.read "model")] }
  | choice {choice : Value} {raws : List Value} {text : String} {usage : Option TokenUsage}
      (choices : (event.read "choices").truthy = true)
      (first : (event.read "choices").item 0 = .ok choice)
      (calls : ((choice.read "delta").field ["tool_calls"] (.list [])).items = .ok raws)
      (said : textOf ((choice.read "delta").read "content") = .ok text)
      (reported : usageOf event = .ok usage) :
      Hands event (choiceParcel text raws usage (choice.read "finish_reason"))

/-- Whatever the first vendor's reader hands out is a parcel. -/
theorem hands_of_chunkOf {event : Value} {m : Message} (h : chunkOf event = .ok (some m)) :
    ∃ parcel, Hands event parcel ∧ m = parcel.toMessage := by
  obtain ⟨usage, husage, h⟩ := Outcome.of_bind_eq_ok h
  dsimp only at h
  split at h
  · rename_i halone
    cases usage with
    | none => cases h
    | some u =>
      cases h
      exact ⟨_, .report (by simpa using halone) husage, rfl⟩
  · rename_i hchoices
    obtain ⟨choice, hfirst, h⟩ := Outcome.of_bind_eq_ok h
    obtain ⟨raws, hraws, h⟩ := Outcome.of_bind_eq_ok h
    obtain ⟨text, htext, h⟩ := Outcome.of_bind_eq_ok h
    split at h
    · cases h
    · cases h
      exact ⟨_, .choice (by simpa using hchoices) hfirst hraws htext husage,
        (toMessage_choiceParcel text raws usage _).symm⟩

/-- The parcel of a typed event is sound. -/
theorem Hands.sound {event : Value} {parcel : Parcel} (h : Hands event parcel)
    (htyped : Typed event) : parcel.Sound := by
  rcases htyped.exists_usageOf with ⟨reported, hreported, hcounted⟩
  cases h with
  | report alone husage =>
    cases husage.symm.trans hreported
    exact ⟨by rintro ⟨⟩, by simp, by simp, hcounted⟩
  | choice hchoices hfirst hcalls htext husage =>
    cases husage.symm.trans hreported
    apply sound_choiceParcel hcounted
    · exact fun raw hraw => htyped.arguments raw (.entry hfirst hcalls hraw)
    · exact fun raw hraw => htyped.index raw (.entry hfirst hcalls hraw)

/-- The counts of a typed event have a sum. -/
theorem Typed.not_overflows {event : Value} (h : Typed event) : ¬Overflows event :=
  TokenUsage.not_overflows h.prompt h.completion

end OpenAI

/-! ## The messages service -/

namespace Anthropic

/-- The parts of an event that are handed on unexamined are what they are meant to be. -/
structure Typed (event : Value) : Prop where
  start : event.read "type" = .str "message_start" → Counts ((event.read "message").read "usage")
  final : event.read "type" = .str "message_delta" → Counts (event.read "usage")
  opened : event.read "type" = .str "content_block_start" →
    (event.read "index").hashable = true
  text : event.read "type" = .str "content_block_delta" →
    (event.read "delta").read "type" = .str "text_delta" →
    ((event.read "delta").read "text").IsPiece
  fragment : event.read "type" = .str "content_block_delta" →
    (event.read "delta").read "type" = .str "input_json_delta" →
    ((event.read "delta").read "partial_json").IsPiece ∧ (event.read "index").hashable = true

theorem exists_usageOf {usage : Value} (h : Counts usage) :
    ∃ reported, usageOf usage = .ok reported ∧ ∀ u ∈ reported, u.Counted := by
  rw [usageOf_eq]
  exact TokenUsage.exists_report h.input h.output (.inl rfl)

/-- The index of a block can be a key if the one that is given can. -/
theorem hashable_blockIndex {event index : Value} (h : (event.read "index").hashable = true)
    (hindex : index ∈ blockIndex event) : index.hashable = true := by
  rw [blockIndex, List.mem_singleton] at hindex
  rw [hindex, Value.field_singleton]
  exact Value.hashable_ifNull h rfl

/-- The parcels that an event can hand on: that of the start with its report, of a tool block that
opens, of a text, of a piece of arguments, of the final report, and of the end. -/
inductive Hands (event : Value) : Parcel → Prop where
  | start {u : TokenUsage} (type : event.read "type" = .str "message_start")
      (reported : usageOf ((event.read "message").read "usage") = .ok (some u)) :
      Hands event { usage := some u, extra := [("model", (event.read "message").read "model")] }
  | opens (type : event.read "type" = .str "content_block_start") :
      Hands event {
        content := .str ""
        calls := [⟨(event.read "content_block").read "id",
          (event.read "content_block").read "name", .str ""⟩]
        indices := blockIndex event }
  | text (type : event.read "type" = .str "content_block_delta")
      (delta : (event.read "delta").read "type" = .str "text_delta") :
      Hands event { content := (event.read "delta").read "text" }
  | fragment (type : event.read "type" = .str "content_block_delta")
      (delta : (event.read "delta").read "type" = .str "input_json_delta") :
      Hands event {
        content := .str ""
        calls := [⟨.str "", .str "", (event.read "delta").field ["partial_json"] (.str "")⟩]
        indices := blockIndex event }
  | final {usage : Option TokenUsage} (type : event.read "type" = .str "message_delta")
      (reported : usageOf (event.read "usage") = .ok usage) :
      Hands event {
        usage := usage
        extra := [("finish_reason", (event.read "delta").read "stop_reason")] }
  | stop (type : event.read "type" = .str "message_stop") :
      Hands event { content := .str "", complete := true }

/-- What is handed out at the start is a parcel. -/
theorem hands_of_startChunk {event : Value} {m : Message}
    (htype : event.read "type" = .str "message_start") (h : startChunk event = .ok (some m)) :
    ∃ parcel, Hands event parcel ∧ m = parcel.toMessage := by
  obtain ⟨usage, husage, h⟩ := Outcome.of_bind_eq_ok h
  cases usage with
  | none => cases h
  | some u =>
    cases h
    exact ⟨_, .start htype husage, rfl⟩

theorem hands_of_blockChunk {event : Value} {m : Message}
    (htype : event.read "type" = .str "content_block_start")
    (h : blockChunk event = .ok (some m)) :
    ∃ parcel, Hands event parcel ∧ m = parcel.toMessage := by
  simp only [blockChunk] at h
  split at h
  · cases h
  · split at h
    · cases h
      exact ⟨_, .opens htype, rfl⟩
    · cases h

theorem hands_of_deltaChunk {event : Value} {m : Message}
    (htype : event.read "type" = .str "content_block_delta")
    (h : deltaChunk event = .ok (some m)) :
    ∃ parcel, Hands event parcel ∧ m = parcel.toMessage := by
  simp only [deltaChunk] at h
  split at h
  · rename_i htext
    split at h
    · cases h
    · cases h
      exact ⟨_, .text htype (Value.eq_str_of_isText htext), rfl⟩
  · split at h
    · rename_i hinput
      split at h
      · cases h
        exact ⟨_, .fragment htype (Value.eq_str_of_isText hinput), rfl⟩
      · cases h
    · cases h

theorem hands_of_finalChunk {event : Value} {m : Message}
    (htype : event.read "type" = .str "message_delta") (h : finalChunk event = .ok (some m)) :
    ∃ parcel, Hands event parcel ∧ m = parcel.toMessage := by
  obtain ⟨usage, husage, h⟩ := Outcome.of_bind_eq_ok h
  dsimp only at h
  split at h
  · cases h
  · cases h
    exact ⟨_, .final htype husage, rfl⟩

/-- Whatever the second vendor's reader hands out is a parcel. -/
theorem hands_of_chunkOf {event : Value} {m : Message} (h : chunkOf event = .ok (some m)) :
    ∃ parcel, Hands event parcel ∧ m = parcel.toMessage := by
  simp only [chunkOf] at h
  split at h
  · rename_i htype
    exact hands_of_startChunk (Value.eq_str_of_isText htype) h
  · split at h
    · rename_i htype
      exact hands_of_blockChunk (Value.eq_str_of_isText htype) h
    · split at h
      · rename_i htype
        exact hands_of_deltaChunk (Value.eq_str_of_isText htype) h
      · split at h
        · rename_i htype
          exact hands_of_finalChunk (Value.eq_str_of_isText htype) h
        · split at h
          · rename_i htype
            cases h
            exact ⟨_, .stop (Value.eq_str_of_isText htype), rfl⟩
          · cases h

/-- The parcel of a typed event is sound. -/
theorem Hands.sound {event : Value} {parcel : Parcel} (h : Hands event parcel)
    (htyped : Typed event) : parcel.Sound := by
  cases h with
  | start type husage =>
    rcases exists_usageOf (htyped.start type) with ⟨reported, hreported, hcounted⟩
    cases husage.symm.trans hreported
    exact ⟨by rintro ⟨⟩, by simp, by simp, hcounted⟩
  | opens type =>
    exact ⟨Value.isPiece_str "", by simpa using Value.isPiece_str "",
      fun _ => hashable_blockIndex (htyped.opened type), by simp⟩
  | text type delta => exact ⟨htyped.text type delta, by simp, by simp, by simp⟩
  | fragment type delta =>
    rcases htyped.fragment type delta with ⟨hpiece, hindex⟩
    refine ⟨Value.isPiece_str "", ?_, fun _ => hashable_blockIndex hindex, by simp⟩
    simpa [Value.field_singleton] using hpiece.ifNull (Value.isPiece_str "")
  | final type husage =>
    rcases exists_usageOf (htyped.final type) with ⟨reported, hreported, hcounted⟩
    cases husage.symm.trans hreported
    exact ⟨by rintro ⟨⟩, by simp, by simp, hcounted⟩
  | stop type => exact ⟨Value.isPiece_str "", by simp, by simp, by simp⟩

/-- The counts of a typed event have a sum. -/
theorem Typed.not_overflows {event : Value} (h : Typed event) : ¬Overflows event := by
  rintro (⟨htype, hcounts⟩ | ⟨htype, hcounts⟩)
  · exact TokenUsage.not_overflows (h.start htype).input (h.start htype).output hcounts
  · exact TokenUsage.not_overflows (h.final htype).input (h.final htype).output hcounts

end Anthropic

/-! ## Content generation -/

namespace Google

/-- The parts of an event that are handed on unexamined are what they are meant to be. -/
structure Typed (event : Value) : Prop where
  counts : Counts (event.field ["usage_metadata", "usageMetadata"] .null)
  total : ((event.field ["usage_metadata", "usageMetadata"] .null).field
    ["total_token_count", "totalTokenCount"] .null).IsCount

/-- In a typed event the usage is counted. -/
theorem Typed.exists_usageOf {event : Value} (h : Typed event) :
    ∃ reported, usageOf event = .ok reported ∧ ∀ u ∈ reported, u.Counted := by
  rw [usageOf_eq]
  exact TokenUsage.exists_report h.counts.prompt h.counts.candidates h.total

/-- The parcel of a candidate: a text, calls, a token report, the reason to finish, which makes it
the end unless it is null, and the model. -/
def candidateParcel (text : String) (calls : List ToolCall) (usage : Option TokenUsage)
    (reason model : Value) : Parcel where
  content := .str text
  calls := calls
  usage := usage
  complete := !reason.isNull
  extra := [("finish_reason", reason), ("model", model)]

/-- The parcels that an event can hand on: that of a report that stands alone, and that of the first
candidate. -/
inductive Hands (tag : String) (event : Value) : Parcel → Prop where
  | report {u : TokenUsage} (alone : (event.read "candidates").truthy = false)
      (reported : usageOf event = .ok (some u)) : Hands tag event { usage := some u }
  | candidate {candidate : Value} {text : String} {calls : List ToolCall}
      {usage : Option TokenUsage} (candidates : (event.read "candidates").truthy = true)
      (first : (event.read "candidates").item 0 = .ok candidate)
      (said : candidateOf tag candidate = .ok (text, calls))
      (reported : usageOf event = .ok usage) :
      Hands tag event
        (candidateParcel text calls usage (finishReasonOf candidate) (modelOf event))

/-- Whatever the third vendor's reader hands out is a parcel. -/
theorem hands_of_chunkOf {tag : String} {event : Value} {m : Message}
    (h : chunkOf tag event = .ok (some m)) :
    ∃ parcel, Hands tag event parcel ∧ m = parcel.toMessage := by
  obtain ⟨usage, husage, h⟩ := Outcome.of_bind_eq_ok h
  dsimp only at h
  split at h
  · rename_i halone
    cases usage with
    | none => cases h
    | some u =>
      cases h
      exact ⟨_, .report (by simpa using halone) husage, rfl⟩
  · rename_i hcandidates
    obtain ⟨candidate, hfirst, h⟩ := Outcome.of_bind_eq_ok h
    obtain ⟨⟨text, calls⟩, hsaid, h⟩ := Outcome.of_bind_eq_ok h
    dsimp only at h
    split at h
    · cases h
    · cases h
      exact ⟨_, .candidate (by simpa using hcandidates) hfirst hsaid husage, rfl⟩

/-- The parcel of a typed event is sound. -/
theorem Hands.sound {tag : String} {event : Value} {parcel : Parcel} (h : Hands tag event parcel)
    (htyped : Typed event) : parcel.Sound := by
  rcases htyped.exists_usageOf with ⟨reported, hreported, hcounted⟩
  cases h with
  | report alone husage =>
    cases husage.symm.trans hreported
    exact ⟨by rintro ⟨⟩, by simp, by simp, hcounted⟩
  | @candidate candidate text calls usage hcandidates hfirst hsaid husage =>
    cases husage.symm.trans hreported
    refine ⟨Value.isPiece_str text, ?_, by simp [candidateParcel], hcounted⟩
    intro call hcall _
    -- the arguments of a call are always a text, for they are written by the reader
    rcases exists_of_candidateOf hsaid with ⟨parts, texts, -, hgives, -⟩
    rcases (hgives.filled call hcall).arguments with ⟨s, -, harguments, -⟩
    exact ⟨s, harguments⟩

/-- The counts of a typed event have a sum. -/
theorem Typed.not_overflows {event : Value} (h : Typed event) : ¬Overflows event :=
  TokenUsage.not_overflows h.counts.prompt h.counts.candidates

end Google

/-! ## All vendors -/

/-- The parts of an event that are handed on unexamined are what they are meant to be. -/
def Vendor.Typed (vendor : Vendor) (event : Value) : Prop :=
  match vendor with
  | .openAI _ => OpenAI.Typed event
  | .anthropic => Anthropic.Typed event
  | .google _ => Google.Typed event

/-- A reading that hands out a chunk was made of that chunk. -/
theorem Reading.eq_of_chunk {x : Outcome (Option Message)} {m : Message}
    (h : Reading.ofOutcome x = .ok (.chunk m)) : x = .ok (some m) := by
  unfold Reading.ofOutcome at h
  split at h <;> cases h
  rfl

namespace Vendor

def Hands (vendor : Vendor) (event : Value) (parcel : Parcel) : Prop :=
  match vendor with
  | .openAI _ => OpenAI.Hands event parcel
  | .anthropic => Anthropic.Hands event parcel
  | .google tag => Google.Hands tag event parcel

/-- Whatever a reader hands out is a parcel. -/
theorem hands_of_readEvent {vendor : Vendor} {event : Value} {m : Message}
    (h : vendor.readEvent event = .ok (.chunk m)) :
    ∃ parcel, vendor.Hands event parcel ∧ m = parcel.toMessage := by
  cases vendor with
  | openAI label => exact OpenAI.hands_of_chunkOf (Reading.eq_of_chunk h)
  | anthropic => exact Anthropic.hands_of_chunkOf (Reading.eq_of_chunk h)
  | google tag => exact Google.hands_of_chunkOf (Reading.eq_of_chunk h)

/-- It is sound if the event is typed. -/
theorem Hands.sound {vendor : Vendor} {event : Value} {parcel : Parcel}
    (h : vendor.Hands event parcel) (htyped : vendor.Typed event) : parcel.Sound := by
  cases vendor with
  | openAI label => exact OpenAI.Hands.sound h htyped
  | anthropic => exact Anthropic.Hands.sound h htyped
  | google tag => exact Google.Hands.sound h htyped

/-- A chunk of a reader is that of a parcel, which is as it is meant to be if the event is. -/
theorem parcel_of_readEvent {vendor : Vendor} {event : Value} {m : Message}
    (h : vendor.readEvent event = .ok (.chunk m)) :
    ∃ parcel : Parcel, m = parcel.toMessage ∧ (vendor.Typed event → parcel.Sound) := by
  rcases hands_of_readEvent h with ⟨parcel, hands, rfl⟩
  exact ⟨parcel, rfl, hands.sound⟩

/-- An event whose unexamined parts are what they are meant to be is read or skipped, whatever its
other parts are. -/
theorem exists_reading {vendor : Vendor} {event : Value} (h : vendor.Typed event) :
    ∃ reading, vendor.readEvent event = .ok reading := by
  rw [exists_reading_iff]
  cases vendor with
  | openAI label => exact OpenAI.Typed.not_overflows h
  | anthropic => exact Anthropic.Typed.not_overflows h
  | google tag => exact Google.Typed.not_overflows h

end Vendor

end Parley
