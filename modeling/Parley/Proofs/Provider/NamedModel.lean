import Parley.Proofs.Provider.Collection
import Parley.Proofs.Stream.Shape

/-!
# The model that a streamed reply names

A complete reply names the model in its metadata. The readers of events say what model an event
names on some paths and not on others, and an accumulator remembers the last one it was told of.
This file says which streams, all of whose events name the same model, are put together into a
message that names it.

* `Vendor.NamesModel`: an event that names a model if it can name any;
* `Vendor.ForwardsModel`: an event whose chunk says what model the event names;
* `named_of_follow`: what an accumulator remembers after following events;
* `model_of_stream`: the model of the message that a stream makes up and that of the complete reply;
* `unnamed_of_greeting`: a stream that names a model in every event, and is put together without.
-/

namespace Parley

open Parley.Stream

/-! ## Events that name a model -/

namespace Vendor

/-- An event that names a model if it can name any: all events of two of the vendors can, and of
the messages service the start of the message. -/
def NamesModel (vendor : Vendor) (model event : Value) : Prop :=
  match vendor with
  | .openAI _ => event.read "model" = model
  | .anthropic => event.read "type" = .str "message_start" →
      (event.read "message").read "model" = model
  | .google _ => Google.modelOf event = model

/-- An event whose chunk says what model the event names: of a chat completion a report that stands
alone, of the messages service a start with a report, of content generation a readable candidate. -/
def ForwardsModel (vendor : Vendor) (event : Value) : Prop :=
  match vendor with
  | .openAI _ => (event.read "choices").truthy = false ∧
      ∃ u, OpenAI.usageOf event = .ok (some u)
  | .anthropic => event.read "type" = .str "message_start" ∧
      ∃ u, Anthropic.usageOf ((event.read "message").read "usage") = .ok (some u)
  | .google tag => (event.read "candidates").truthy = true ∧
      ∃ m, Google.chunkOf tag event = .ok (some m)

variable {vendor : Vendor} {model event : Value}

/-- An event that forwards a model hands out a chunk. -/
theorem exists_chunk_of_forwards (h : vendor.ForwardsModel event) :
    ∃ m, vendor.readEvent event = .ok (.chunk m) := by
  cases vendor with
  | openAI label =>
    obtain ⟨halone, u, husage⟩ := h
    exact ⟨_, congrArg Reading.ofOutcome (OpenAI.chunkOf_of_alone halone husage)⟩
  | anthropic =>
    obtain ⟨htype, u, husage⟩ := h
    have hchunk : Anthropic.chunkOf event = Anthropic.startChunk event := by
      simp [Anthropic.chunkOf, htype]
    rw [Anthropic.startChunk, Outcome.bind_of_ok husage] at hchunk
    exact ⟨_, congrArg Reading.ofOutcome hchunk⟩
  | google tag =>
    obtain ⟨-, m, hchunk⟩ := h
    exact ⟨m, congrArg Reading.ofOutcome hchunk⟩

end Vendor

/-! ## One event -/

/-- The model of a parcel is the one that was named with it. -/
theorem Stream.Parcel.value_model {parcel : Parcel} (h : (parcel.extra.map Prod.fst).Nodup) :
    parcel.metadata.value "model" = parcel.extra.value "model" := by
  by_cases hindices : parcel.indices.isEmpty = true <;>
    simp [metadata, Reply.chunkMetadata, hindices, Fields.value_present h]

/-- What a parcel says of the model is what its event names if the event forwards it, and nothing
otherwise. -/
theorem Vendor.Hands.model {vendor : Vendor} {model event : Value} {parcel : Parcel}
    (h : vendor.Hands event parcel)
    (hread : vendor.readEvent event = .ok (.chunk parcel.toMessage))
    (hnames : vendor.NamesModel model event) :
    (vendor.ForwardsModel event ∧ parcel.metadata.value "model" = model) ∨
      (¬vendor.ForwardsModel event ∧ parcel.metadata.value "model" = .null) := by
  cases vendor with
  | openAI label =>
    cases h with
    | @report u alone reported =>
      refine .inl ⟨⟨alone, u, reported⟩, ?_⟩
      have hmodel : event.read "model" = model := hnames
      rw [Parcel.value_model (by simp)]
      simp [hmodel]
    | choice choices =>
      refine .inr ⟨?_, ?_⟩
      · rintro ⟨alone, -⟩
        cases choices.symm.trans alone
      · rw [Parcel.value_model (by simp [OpenAI.choiceParcel])]
        simp [OpenAI.choiceParcel]
  | anthropic =>
    have hother : ∀ {type : String}, event.read "type" = .str type → type ≠ "message_start" →
        ¬Vendor.anthropic.ForwardsModel event := by
      rintro type htype hne ⟨hstart, -⟩
      exact hne (Value.str.inj (htype.symm.trans hstart))
    cases h with
    | @start u type reported =>
      refine .inl ⟨⟨type, u, reported⟩, ?_⟩
      rw [Parcel.value_model (by simp)]
      simpa using hnames type
    | opens type => exact .inr ⟨hother type (by decide), Parcel.value_model (by simp)⟩
    | text type => exact .inr ⟨hother type (by decide), Parcel.value_model (by simp)⟩
    | fragment type => exact .inr ⟨hother type (by decide), Parcel.value_model (by simp)⟩
    | final type =>
      refine .inr ⟨hother type (by decide), ?_⟩
      rw [Parcel.value_model (by simp)]
      simp
    | stop type => exact .inr ⟨hother type (by decide), Parcel.value_model (by simp)⟩
  | google tag =>
    cases h with
    | report alone =>
      refine .inr ⟨?_, Parcel.value_model (by simp)⟩
      rintro ⟨candidates, -⟩
      cases alone.symm.trans candidates
    | candidate candidates =>
      refine .inl ⟨⟨candidates, _, Reading.eq_of_chunk hread⟩, ?_⟩
      have hmodel : Google.modelOf event = model := hnames
      rw [Parcel.value_model (by simp [Google.candidateParcel])]
      simp [Google.candidateParcel, hmodel]

/-! ## A whole stream -/

namespace Stream

variable {vendor : Vendor} {model : Value} {events : List Value}

/-- What is remembered under one key does not change the others, and a null changes nothing. -/
theorem value_remembered (named : Fields) (key other : String) (v : Value) :
    (remembered named key v).value other =
      if other = key ∧ v.isNull = false then v else named.value other := by
  rw [Fields.value, Fields.valueOr, remembered, lookup_remembered]
  split <;> rfl

/-- A parcel leaves the model that was named before unless it says another. -/
theorem named_addTo (parcel : Parcel) (a : Accumulator) (usage : Value) :
    (parcel.addTo a usage).named.value "model" =
      (parcel.metadata.value "model").ifNull (a.named.value "model") := by
  have hnamed := (rest_foldl_placeFragment parcel.fragments
    { a with phase := .streaming, texts := a.texts ++ kept parcel.content }).2.2.2
  cases hnull : (parcel.metadata.value "model").isNull <;>
    simp [Parcel.addTo, value_remembered, hnamed, hnull, Value.ifNull]

/-- What is remembered of the model after following events that all name the same one: that model
if one of the events that were read forwards it, and what was remembered before otherwise. -/
theorem Follows.named {a b : Accumulator} (h : Follows vendor a events b) (hmodel : model ≠ .null)
    (hnames : ∀ event ∈ events, vendor.NamesModel model event) :
    ((∃ event ∈ vendor.upToEnd events, vendor.ForwardsModel event) ∧
        b.named.value "model" = model) ∨
      ((∀ event ∈ vendor.upToEnd events, ¬vendor.ForwardsModel event) ∧
        b.named.value "model" = a.named.value "model") := by
  have hnull : model.isNull = false := by
    rw [← Bool.not_eq_true, Value.isNull_iff]
    exact hmodel
  induction h with
  | nil a => exact .inr ⟨by simp, rfl⟩
  | @skip a b event reading rest hread hnothing _ ih =>
    -- an event that is skipped forwards nothing
    have hskips : ¬vendor.ForwardsModel event := by
      intro hforwards
      obtain ⟨m, hm⟩ := Vendor.exists_chunk_of_forwards hforwards
      cases hread.symm.trans hm
      cases hnothing
    rw [Vendor.upToEnd_of_goesOn (goesOn_of_skip hread hnothing)]
    simpa [hskips] using ih (List.forall_mem_cons.1 hnames).2
  | @chunk a b event usage parcel rest hands hread _ _ _ hgoes _ ih =>
    rcases List.forall_mem_cons.1 hnames with ⟨hfirst, hrest⟩
    have hnamed := named_addTo parcel a usage
    rw [upToEnd_of_parcel hread hgoes]
    rcases hands.model hread hfirst with ⟨hforwards, hsays⟩ | ⟨hnot, hsays⟩
    · -- from here on the model is remembered, whatever comes later
      refine .inl ⟨⟨event, by simp, hforwards⟩, ?_⟩
      rcases ih hrest with ⟨-, hb⟩ | ⟨-, hb⟩
      · exact hb
      · simp [hb, hnamed, hsays, Value.ifNull, hnull]
    · rcases ih hrest with ⟨hexists, hb⟩ | ⟨hnone, hb⟩
      · exact .inl ⟨by simpa [hnot] using hexists, hb⟩
      · exact .inr ⟨by simpa [hnot] using hnone, by simp [hb, hnamed, hsays, Value.ifNull]⟩
  | @last a event usage parcel rest hands hread _ _ _ hends =>
    have hnamed := named_addTo parcel a usage
    rw [upToEnd_of_last hread hends]
    rcases hands.model hread (hnames event (by simp)) with ⟨hforwards, hsays⟩ | ⟨hnot, hsays⟩
    · exact .inl ⟨⟨event, by simp, hforwards⟩, by simp [hnamed, hsays, Value.ifNull, hnull]⟩
    · exact .inr ⟨by simpa using hnot, by simp [hnamed, hsays, Value.ifNull]⟩

/-- A stream that is complete was ended by the parcel of one of the events that were read. -/
theorem Follows.exists_end {a b : Accumulator} (h : Follows vendor a events b)
    (hopen : a.isComplete = false) (hend : b.isComplete = true) :
    ∃ event ∈ vendor.upToEnd events, ∃ parcel : Parcel, vendor.Hands event parcel ∧
      vendor.readEvent event = .ok (.chunk parcel.toMessage) ∧ parcel.complete = true := by
  induction h with
  | nil a => cases hopen.symm.trans hend
  | @skip a b event reading rest hread hnothing _ ih =>
    rcases ih hopen hend with ⟨other, hother, hparcel⟩
    rw [Vendor.upToEnd_of_goesOn (goesOn_of_skip hread hnothing)]
    exact ⟨other, List.mem_cons_of_mem event hother, hparcel⟩
  | @chunk a b event usage parcel rest _ hread _ _ _ hgoes _ ih =>
    have hcomplete : (parcel.addTo a usage).isComplete = false := by
      rw [isComplete_addTo, hgoes]
    rcases ih hcomplete hend with ⟨other, hother, hparcel⟩
    rw [upToEnd_of_parcel hread hgoes]
    exact ⟨other, List.mem_cons_of_mem event hother, hparcel⟩
  | @last a event usage parcel rest hands hread _ _ _ hends =>
    rw [upToEnd_of_last hread hends]
    exact ⟨event, by simp, parcel, hands, hread, hends⟩

/-- Of content generation only a candidate completes a stream, and it forwards the model. -/
theorem forwards_of_end {tag : String} {event : Value} {parcel : Parcel}
    (hands : (Vendor.google tag).Hands event parcel)
    (hread : (Vendor.google tag).readEvent event = .ok (.chunk parcel.toMessage))
    (hend : parcel.complete = true) : (Vendor.google tag).ForwardsModel event := by
  cases hands with
  | report => cases hend
  | candidate candidates => exact ⟨candidates, _, Reading.eq_of_chunk hread⟩

/-- The model of a result is the one that was remembered. -/
theorem Accumulator.get_model_of_result {a : Accumulator} {m : Message} (h : a.result = .ok m) :
    m.metadata.get "model" = .ok (a.named.value "model") := by
  rcases Outcome.of_bind_eq_ok h with ⟨text, -, hcalls⟩
  rcases Outcome.of_bind_eq_ok hcalls with ⟨calls, -, hm⟩
  cases hm
  have hvalue : Fields.value (a.named ++ [("is_complete", .bool a.isComplete)]) "model" =
      a.named.value "model" := by
    simp only [Fields.value, Fields.valueOr, List.lookup_append]
    cases List.lookup "model" a.named <;> rfl
  rw [get_dict, hvalue]

/-- A complete reply names the model that its response names. A stream whose events all name the
same model is put together if nothing in it is of the wrong kind. If it is put together, the message
names the model exactly if one of the events that were read forwards it, and names none otherwise;
the service whose candidates forward it does so in every complete stream. -/
theorem model_of_stream {response : Value} {single : Message} (hmodel : model ≠ .null)
    (hnames : ∀ event ∈ events, vendor.NamesModel model event)
    (hresponse : vendor.modelOf response = model)
    (hsingle : vendor.readReply response = .ok single) :
    single.metadata.get "model" = .ok model ∧
    ((∀ event ∈ events, vendor.Typed event) →
      ∃ a streamed, followEvents vendor .empty events = .ok a ∧ a.result = .ok streamed) ∧
    ∀ a streamed, followEvents vendor .empty events = .ok a → a.result = .ok streamed →
      ∃ named, streamed.metadata.get "model" = .ok named ∧
        (named = model ↔ ∃ event ∈ vendor.upToEnd events, vendor.ForwardsModel event) ∧
        (named = model ∨ named = .null) ∧
        (∀ tag, vendor = .google tag → a.isComplete = true → named = model) := by
  refine ⟨?_, ?_, ?_⟩
  · rcases (Vendor.replyShape_of_readReply hsingle).metadata with ⟨reason, hmetadata⟩
    rw [hmetadata, get_dict, ← hresponse]
    simp
  · intro htyped
    rcases exists_handsOn htyped with ⟨parcels, hhands, hsound⟩
    have hall := assemblable_of_sound hsound
    rcases follow_of_assemblable hhands gathers_empty rfl hall with ⟨a, hfollow, hgathers⟩
    rcases hgathers.exists_result_iff.2 ⟨hall.texts, hall.arguments⟩ with ⟨streamed, hresult⟩
    exact ⟨a, streamed, hfollow, hresult⟩
  · intro a streamed hfollow hresult
    have hfollows := follows_of_follow rfl hfollow
    have hnamed : a.named.value "model" = model ↔
        ∃ event ∈ vendor.upToEnd events, vendor.ForwardsModel event := by
      rcases hfollows.named hmodel hnames with ⟨hexists, hb⟩ | ⟨hnone, hb⟩
      · exact iff_of_true hb hexists
      · refine iff_of_false ?_ (by simpa using hnone)
        rw [hb]
        exact hmodel.symm
    refine ⟨_, Accumulator.get_model_of_result hresult, hnamed, ?_, ?_⟩
    · rcases hfollows.named hmodel hnames with ⟨-, hb⟩ | ⟨-, hb⟩
      · exact .inl hb
      · exact .inr hb
    · rintro tag rfl hend
      rcases hfollows.exists_end rfl hend with ⟨event, hevent, parcel, hands, hread, hcomplete⟩
      exact hnamed.2 ⟨event, hevent, forwards_of_end hands hread hcomplete⟩

/-! ### Greetings -/

/-- An event that starts a message of a model, with a report. -/
def startEvent (name : Value) : Value :=
  .dict [("type", .str "message_start"),
    ("message", .dict [("model", name), ("usage", .dict [("input_tokens", .int 3)])])]

theorem typed_startEvent (name : Value) : Anthropic.Typed (startEvent name) where
  start := fun _ =>
    ⟨by simpa [startEvent] using .inr ⟨3, rfl⟩, by simpa [startEvent] using .inl rfl⟩
  final := by simp [startEvent]
  opened := by simp [startEvent]
  text := by simp [startEvent]
  fragment := by simp [startEvent]

def greetReply (name : Value) : Value :=
  .dict [("model", name),
    ("content", .list [.dict [("type", .str "text"), ("text", .str "Hi")]])]

/-- A start with a report names the model of the greeting. -/
theorem model_of_stream_greeting :
    ∃ a streamed single,
      followEvents .anthropic .empty
        [startEvent (.str "m1"), textEvent (.str "Hi"), endEvent] = .ok a ∧
      a.result = .ok streamed ∧ streamed.metadata.get "model" = .ok (.str "m1") ∧
      Vendor.anthropic.readReply (greetReply (.str "m1")) = .ok single ∧
      single.metadata.get "model" = .ok (.str "m1") := by
  have htyped : ∀ event ∈ [startEvent (.str "m1"), textEvent (.str "Hi"), endEvent],
      Vendor.anthropic.Typed event := by
    intro event hevent
    simp only [List.mem_cons, List.not_mem_nil, or_false] at hevent
    rcases hevent with rfl | rfl | rfl
    · exact typed_startEvent _
    · exact typed_textEvent (Value.isPiece_str "Hi")
    · exact typed_endEvent
  have hnames : ∀ event ∈ [startEvent (.str "m1"), textEvent (.str "Hi"), endEvent],
      Vendor.anthropic.NamesModel (.str "m1") event := by
    simp [Vendor.NamesModel, startEvent, textEvent, endEvent]
  have hread : ∃ single, Vendor.anthropic.readReply (greetReply (.str "m1")) = .ok single :=
    ⟨_, rfl⟩
  rcases hread with ⟨single, hread⟩
  rcases model_of_stream (by simp) hnames rfl hread with ⟨hsingle, hexists, hall⟩
  rcases hexists htyped with ⟨a, streamed, hfollow, hresult⟩
  rcases hall a streamed hfollow hresult with ⟨named, hget, hnamed, -, -⟩
  have hforwards : ∃ event ∈ Vendor.anthropic.upToEnd
      [startEvent (.str "m1"), textEvent (.str "Hi"), endEvent],
      Vendor.anthropic.ForwardsModel event :=
    ⟨startEvent (.str "m1"), .head _, rfl, _, rfl⟩
  rw [hnamed.2 hforwards] at hget
  exact ⟨a, streamed, single, hfollow, hresult, hget, hread, hsingle⟩

/-- An event of a chat completion with the name of a model. -/
def namedChoice (name delta reason : Value) : Value :=
  .dict [("model", name),
    ("choices", .list [.dict [("index", .int 0), ("delta", delta), ("finish_reason", reason)]])]

/-- A greeting of a chat completion names its model in every event, and at once, but the message
that the events are put together into does not name it. -/
theorem unnamed_of_greeting :
    let events := [
      namedChoice (.str "m1") (.dict [("role", .str "assistant"), ("content", .str "Hi")]) .null,
      namedChoice (.str "m1") (.dict []) (.str "stop")]
    let response := Value.dict [("model", .str "m1"), ("choices", .list [.dict [
      ("message", .dict [("content", .str "Hi")]), ("finish_reason", .str "stop")]])]
    (∀ event ∈ events, (Vendor.openAI (.str "openai")).NamesModel (.str "m1") event) ∧
    ∃ a streamed single,
      followEvents (.openAI (.str "openai")) .empty events = .ok a ∧ a.isComplete = true ∧
      a.result = .ok streamed ∧ streamed.metadata.get "model" = .ok .null ∧
      (Vendor.openAI (.str "openai")).readReply response = .ok single ∧
      single.content = streamed.content ∧ single.metadata.get "model" = .ok (.str "m1") := by
  refine ⟨?_, _, _, _, rfl, rfl, rfl, rfl, rfl, rfl, rfl⟩
  simp [Vendor.NamesModel, namedChoice]

end Stream

end Parley
