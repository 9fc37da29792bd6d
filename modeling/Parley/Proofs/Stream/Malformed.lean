import Parley.Proofs.Stream.Events
import Parley.Proofs.Stream.Parcels

/-!
# Streams with malformed events

A stream is followed up to the chunk that completes it, whatever its events are. An event that
cannot be read is skipped. This file says exactly which streams of arbitrary events are put together
without a fault: those of whose parcels a message can be put together. A part that is not examined
by the reader and is of the wrong kind is not skipped, so such a stream may break later on.

* `followEvents`: reading and feeding events up to the end of the stream;
* `HandsOn`: the parcels that a reader hands on, with the skipped events left out;
* `Follows`: how a stream is followed that does not break, event by event;
* `assembled_of_events`: which streams are put together, and that one is if the unexamined parts are
  of the right kinds;
* `breaks_of_number`: a text that is a number is handed on and breaks the stream.
-/

namespace Parley.Stream

variable {vendor : Vendor}

/-! ## Following a stream -/

/-- Reads the events of a stream and feeds what they give, up to the one that completes it. -/
def followEvents (vendor : Vendor) (a : Accumulator) : List Value → Outcome Accumulator
  | [] => .ok a
  | event :: rest => do
    let b ← feedEvent vendor a event
    if b.isComplete then return b else followEvents vendor b rest

/-- The parcels that are handed on of the events of a stream, up to its end. Events that bring
nothing or cannot be read hand on none. -/
inductive HandsOn (vendor : Vendor) : List Value → List Parcel → Prop where
  | nil : HandsOn vendor [] []
  | skip {event : Value} {reading : Reading} {rest : List Value} {parcels : List Parcel}
      (read : vendor.readEvent event = .ok reading) (nothing : reading.chunk? = none)
      (later : HandsOn vendor rest parcels) : HandsOn vendor (event :: rest) parcels
  | chunk {event : Value} {parcel : Parcel} {rest : List Value} {parcels : List Parcel}
      (read : vendor.readEvent event = .ok (.chunk parcel.toMessage))
      (goes : parcel.complete = false) (later : HandsOn vendor rest parcels) :
      HandsOn vendor (event :: rest) (parcel :: parcels)
  | last {event : Value} {parcel : Parcel} {rest : List Value}
      (read : vendor.readEvent event = .ok (.chunk parcel.toMessage))
      (ends : parcel.complete = true) : HandsOn vendor (event :: rest) [parcel]

/-! ## One event -/

/-- A parcel completes the stream if it is the end. -/
theorem isComplete_addTo (parcel : Parcel) (a : Accumulator) (usage : Value) :
    (parcel.addTo a usage).isComplete = parcel.complete := by
  have hphase := (rest_foldl_placeFragment parcel.fragments
    { a with phase := .streaming, texts := a.texts ++ kept parcel.content }).2.2.1
  cases hcomplete : parcel.complete <;>
    simp [Parcel.addTo, Accumulator.isComplete, hcomplete, hphase]

/-- An event that is skipped leaves what was gathered. -/
theorem feedEvent_of_skip {event : Value} {reading : Reading}
    (h : vendor.readEvent event = .ok reading) (hnothing : reading.chunk? = none)
    (a : Accumulator) : feedEvent vendor a event = .ok a := by
  have hnull : handedOn reading = .null := by
    rw [handedOn, hnothing]
    rfl
  rw [feedEvent_of_reading h, hnull]
  rfl

/-- An event that hands out a parcel feeds its chunk. -/
theorem feedEvent_of_parcel {event : Value} {parcel : Parcel}
    (h : vendor.readEvent event = .ok (.chunk parcel.toMessage)) (a : Accumulator) :
    feedEvent vendor a event = feedChunk a parcel.toMessage.toValue :=
  feedEvent_of_reading h a

/-- An event of an open stream that does not break it is skipped or hands on a parcel, which is
taken in. -/
theorem of_feedEvent {event : Value} {a b : Accumulator} (hopen : a.isComplete = false)
    (h : feedEvent vendor a event = .ok b) :
    (∃ reading, vendor.readEvent event = .ok reading ∧ reading.chunk? = none ∧ b = a) ∨
      ∃ (parcel : Parcel) (usage : Value), vendor.Hands event parcel ∧
        vendor.readEvent event = .ok (.chunk parcel.toMessage) ∧ parcel.Keyed ∧
        mergeUsage a.usage (usageValue parcel.usage) = .ok usage ∧ parcel.addTo a usage = b := by
  obtain ⟨reading, hread, -⟩ := Outcome.of_bind_eq_ok h
  cases hchunk : reading.chunk? with
  | none =>
    rw [feedEvent_of_skip hread hchunk] at h
    cases h
    exact .inl ⟨reading, hread, hchunk, rfl⟩
  | some m =>
    have hreading : reading = .chunk m := by
      cases reading <;> cases hchunk
      rfl
    subst hreading
    obtain ⟨parcel, hands, rfl⟩ := Vendor.hands_of_readEvent hread
    rw [feedEvent_of_parcel hread, feedChunk_eq_ok_iff hopen] at h
    obtain ⟨hkeyed, -, usage, husage, rfl⟩ := h
    exact .inr ⟨parcel, usage, hands, hread, hkeyed, husage, rfl⟩

/-! ## A whole stream -/

/-- How a stream is followed that does not break: event by event, from one accumulator to
another. -/
inductive Follows (vendor : Vendor) : Accumulator → List Value → Accumulator → Prop where
  | nil (a : Accumulator) : Follows vendor a [] a
  | skip {a b : Accumulator} {event : Value} {reading : Reading} {rest : List Value}
      (read : vendor.readEvent event = .ok reading) (nothing : reading.chunk? = none)
      (later : Follows vendor a rest b) : Follows vendor a (event :: rest) b
  | chunk {a b : Accumulator} {event usage : Value} {parcel : Parcel} {rest : List Value}
      (hands : vendor.Hands event parcel)
      (read : vendor.readEvent event = .ok (.chunk parcel.toMessage)) (keyed : parcel.Keyed)
      (merged : mergeUsage a.usage (usageValue parcel.usage) = .ok usage)
      (fed : feedChunk a parcel.toMessage.toValue = .ok (parcel.addTo a usage))
      (goes : parcel.complete = false) (later : Follows vendor (parcel.addTo a usage) rest b) :
      Follows vendor a (event :: rest) b
  | last {a : Accumulator} {event usage : Value} {parcel : Parcel} {rest : List Value}
      (hands : vendor.Hands event parcel)
      (read : vendor.readEvent event = .ok (.chunk parcel.toMessage)) (keyed : parcel.Keyed)
      (merged : mergeUsage a.usage (usageValue parcel.usage) = .ok usage)
      (fed : feedChunk a parcel.toMessage.toValue = .ok (parcel.addTo a usage))
      (ends : parcel.complete = true) : Follows vendor a (event :: rest) (parcel.addTo a usage)

/-- Following a stream that ends without a fault is following it event by event. -/
theorem follows_of_follow {events : List Value} {a b : Accumulator} (hopen : a.isComplete = false)
    (h : followEvents vendor a events = .ok b) : Follows vendor a events b := by
  induction events generalizing a with
  | nil =>
    cases h
    exact .nil b
  | cons event rest ih =>
    obtain ⟨c, hfirst, hrest⟩ := Outcome.of_bind_eq_ok h
    rcases of_feedEvent hopen hfirst with
      ⟨reading, hread, hnothing, rfl⟩ | ⟨parcel, usage, hands, hread, hkeyed, husage, rfl⟩
    · simp only [hopen, Bool.false_eq_true, if_false] at hrest
      exact .skip hread hnothing (ih hopen hrest)
    · rw [feedEvent_of_parcel hread] at hfirst
      have hcomplete := isComplete_addTo parcel a usage
      cases hend : parcel.complete with
      | true =>
        rw [hend] at hcomplete
        simp only [hcomplete, if_true] at hrest
        cases hrest
        exact .last hands hread hkeyed husage hfirst hend
      | false =>
        rw [hend] at hcomplete
        simp only [hcomplete, Bool.false_eq_true, if_false] at hrest
        exact .chunk hands hread hkeyed husage hfirst hend (ih hcomplete hrest)

/-- A stream that is followed without a fault is gathered by the parcels that it hands on. -/
theorem Follows.gathers {events : List Value} {a b : Accumulator} {before : List Parcel}
    (h : Follows vendor a events b) (ha : Gathers a before) :
    ∃ parcels, HandsOn vendor events parcels ∧ Gathers b (before ++ parcels) ∧
      ∀ parcel ∈ parcels, parcel.Keyed := by
  induction h generalizing before with
  | nil a => exact ⟨[], .nil, by simpa using ha, by simp⟩
  | skip hread hnothing _ ih =>
    rcases ih ha with ⟨parcels, hlater, hb, hall⟩
    exact ⟨parcels, .skip hread hnothing hlater, hb, hall⟩
  | @chunk a b event usage parcel rest _ hread hkeyed husage _ hgoes _ ih =>
    rcases ih (ha.next husage) with ⟨parcels, hlater, hb, hall⟩
    refine ⟨parcel :: parcels, .chunk hread hgoes hlater, by simpa using hb, ?_⟩
    exact List.forall_mem_cons.2 ⟨hkeyed, hall⟩
  | @last a event usage parcel rest _ hread hkeyed husage _ hends =>
    exact ⟨[parcel], .last hread hends, ha.next husage, by simpa using hkeyed⟩

/-- A parcel among parcels that can be put together is taken in after those before it. -/
theorem feedChunk_of_assemblable {a : Accumulator} {before later : List Parcel} {parcel : Parcel}
    (ha : Gathers a before) (hopen : a.isComplete = false)
    (h : Assemblable (before ++ parcel :: later)) :
    ∃ usage, mergeUsage a.usage (usageValue parcel.usage) = .ok usage ∧
      feedChunk a parcel.toMessage.toValue = .ok (parcel.addTo a usage) := by
  obtain ⟨total, htotal, husage⟩ := ha.usage
  have hmerged : ∃ merged, TokenUsage.mergeAll
      (before.filterMap Parcel.usage ++ parcel.usage.toList) = .ok merged := by
    obtain ⟨all, hall⟩ := h.usage
    have hsplit : (before ++ parcel :: later).filterMap Parcel.usage =
        (before.filterMap Parcel.usage ++ parcel.usage.toList) ++
          later.filterMap Parcel.usage := by
      cases hreport : parcel.usage <;> simp [hreport]
    rw [hsplit] at hall
    exact TokenUsage.exists_mergeAll_of_append hall
  obtain ⟨merged, hmerged⟩ := hmerged
  have hnew : mergeUsage a.usage (usageValue parcel.usage) = .ok (usageValue merged) := by
    rw [husage, mergeUsage_eq_ok_iff htotal]
    exact ⟨merged, hmerged, rfl⟩
  refine ⟨usageValue merged, hnew, (feedChunk_eq_ok_iff hopen).2 ⟨?_, ?_, _, hnew, rfl⟩⟩
  · exact h.keyed parcel (by simp)
  · intro _
    -- the texts so far are pieces of contents, and all of these are texts
    have htexts : (∃ text, (parcel.addTo a (usageValue merged)).text = .ok text) := by
      rw [(ha.next hnew).exists_text_iff]
      intro other hother
      refine h.texts other ?_
      simp only [List.mem_append, List.mem_singleton] at hother
      simp only [List.mem_append, List.mem_cons]
      tauto
    rcases htexts with ⟨text, htext⟩
    refine ⟨text, ?_⟩
    rw [Accumulator.text, (ha.next hnew).texts] at htext
    rw [ha.texts]
    simpa using htext

/-- A stream of which a message can be put together is followed without a fault. -/
theorem follow_of_assemblable {events : List Value} {a : Accumulator}
    {before parcels : List Parcel} (h : HandsOn vendor events parcels) (ha : Gathers a before)
    (hopen : a.isComplete = false) (hall : Assemblable (before ++ parcels)) :
    ∃ b, followEvents vendor a events = .ok b ∧ Gathers b (before ++ parcels) := by
  induction h generalizing a before with
  | nil => exact ⟨a, rfl, by simpa using ha⟩
  | skip hread hnothing _ ih =>
    rcases ih ha hopen hall with ⟨b, hb, hgathered⟩
    refine ⟨b, ?_, hgathered⟩
    rw [followEvents, Outcome.bind_of_ok (feedEvent_of_skip hread hnothing a)]
    simpa only [hopen, Bool.false_eq_true, if_false] using hb
  | @chunk event parcel rest parcels hread hgoes _ ih =>
    rcases feedChunk_of_assemblable ha hopen hall with ⟨usage, husage, hfeed⟩
    have hcomplete : (parcel.addTo a usage).isComplete = false := by
      rw [isComplete_addTo, hgoes]
    rcases ih (ha.next husage) hcomplete (by simpa using hall) with ⟨b, hb, hgathered⟩
    refine ⟨b, ?_, by simpa using hgathered⟩
    rw [followEvents, feedEvent_of_parcel hread, Outcome.bind_of_ok hfeed]
    simpa only [hcomplete, Bool.false_eq_true, if_false] using hb
  | @last event parcel rest hread hends =>
    rcases feedChunk_of_assemblable ha hopen hall with ⟨usage, husage, hfeed⟩
    refine ⟨parcel.addTo a usage, ?_, ha.next husage⟩
    rw [followEvents, feedEvent_of_parcel hread, Outcome.bind_of_ok hfeed]
    simp only [isComplete_addTo, hends, if_true]
    rfl

/-- Events whose unexamined parts are of the right kinds hand on parcels of the right kinds. -/
theorem exists_handsOn {events : List Value} (h : ∀ event ∈ events, vendor.Typed event) :
    ∃ parcels, HandsOn vendor events parcels ∧ ∀ parcel ∈ parcels, parcel.Sound := by
  induction events with
  | nil => exact ⟨[], .nil, by simp⟩
  | cons event rest ih =>
    have hevent := h event (by simp)
    rcases ih fun other hother => h other (by simp [hother]) with ⟨parcels, hlater, hsound⟩
    obtain ⟨reading, hread⟩ := Vendor.exists_reading hevent
    cases reading with
    | chunk m =>
      obtain ⟨parcel, rfl, hparcel⟩ := Vendor.parcel_of_readEvent hread
      cases hend : parcel.complete with
      | true => exact ⟨[parcel], .last hread hend, by simpa using hparcel hevent⟩
      | false =>
        refine ⟨parcel :: parcels, .chunk hread hend hlater, ?_⟩
        exact List.forall_mem_cons.2 ⟨hparcel hevent, hsound⟩
    | nothing => exact ⟨parcels, .skip hread rfl hlater, hsound⟩
    | malformed => exact ⟨parcels, .skip hread rfl hlater, hsound⟩

/-- A stream of arbitrary events is followed without a fault and put together exactly if a message
can be put together of the parcels that it hands on. It is if, in every event, the parts that the
reader does not examine are what they are meant to be; whatever else is wrong with an event, it is
skipped and the others are gathered. -/
theorem assembled_of_events (vendor : Vendor) (events : List Value) :
    ((∃ a text m, followEvents vendor .empty events = .ok a ∧ a.text = .ok text ∧
        a.result = .ok m) ↔
      ∃ parcels, HandsOn vendor events parcels ∧ Assemblable parcels) ∧
    ((∀ event ∈ events, vendor.Typed event) →
      ∃ parcels a text m, HandsOn vendor events parcels ∧
        followEvents vendor .empty events = .ok a ∧ Gathers a parcels ∧ a.text = .ok text ∧
        a.result = .ok m) := by
  have hassembled : ∀ {parcels}, HandsOn vendor events parcels → Assemblable parcels →
      ∃ a text m, followEvents vendor .empty events = .ok a ∧ Gathers a parcels ∧
        a.text = .ok text ∧ a.result = .ok m := by
    intro parcels hhands hall
    rcases follow_of_assemblable hhands gathers_empty rfl hall with ⟨a, ha, hgathered⟩
    rcases hgathered.exists_text_iff.2 hall.texts with ⟨text, htext⟩
    rcases hgathered.exists_result_iff.2 ⟨hall.texts, hall.arguments⟩ with ⟨m, hm⟩
    exact ⟨a, text, m, ha, hgathered, htext, hm⟩
  refine ⟨⟨?_, ?_⟩, ?_⟩
  · rintro ⟨a, text, m, ha, -, hm⟩
    rcases (follows_of_follow rfl ha).gathers gathers_empty with
      ⟨parcels, hhands, hgathered, hkeyed⟩
    rcases hgathered.exists_result_iff.1 ⟨m, hm⟩ with ⟨htexts, harguments⟩
    rcases hgathered.usage with ⟨total, htotal, -⟩
    exact ⟨parcels, hhands, htexts, harguments, hkeyed, total, htotal⟩
  · rintro ⟨parcels, hhands, hall⟩
    rcases hassembled hhands hall with ⟨a, text, m, ha, -, htext, hm⟩
    exact ⟨a, text, m, ha, htext, hm⟩
  · intro htyped
    rcases exists_handsOn htyped with ⟨parcels, hhands, hsound⟩
    rcases hassembled hhands (assemblable_of_sound hsound) with
      ⟨a, text, m, ha, hgathered, htext, hm⟩
    exact ⟨parcels, a, text, m, hhands, ha, hgathered, htext, hm⟩

/-! ## Events of the messages service -/

def textEvent (text : Value) : Value :=
  .dict [("type", .str "content_block_delta"), ("index", .int 0),
    ("delta", .dict [("type", .str "text_delta"), ("text", text)])]

def endEvent : Value :=
  .dict [("type", .str "message_stop")]

theorem typed_textEvent {text : Value} (h : text.IsPiece) : Anthropic.Typed (textEvent text) where
  start := by simp [textEvent]
  final := by simp [textEvent]
  opened := by simp [textEvent]
  text := by simpa [textEvent] using h
  fragment := by simp [textEvent]

theorem typed_endEvent : Anthropic.Typed endEvent where
  start := by simp [endEvent]
  final := by simp [endEvent]
  opened := by simp [endEvent]
  text := by simp [endEvent]
  fragment := by simp [endEvent]

/-- A text that is missing is skipped, and the stream around it is put together. -/
theorem assembled_of_missing_text :
    (∀ event ∈ [textEvent .null, textEvent (.str "Hi"), endEvent],
      Vendor.anthropic.Typed event) ∧
    ∃ parcels a text m,
      HandsOn .anthropic [textEvent .null, textEvent (.str "Hi"), endEvent] parcels ∧
      followEvents .anthropic .empty [textEvent .null, textEvent (.str "Hi"), endEvent] = .ok a ∧
      Gathers a parcels ∧ a.text = .ok text ∧ a.result = .ok m := by
  have htyped : ∀ event ∈ [textEvent .null, textEvent (.str "Hi"), endEvent],
      Vendor.anthropic.Typed event := by
    intro event hevent
    simp only [List.mem_cons, List.not_mem_nil, or_false] at hevent
    rcases hevent with rfl | rfl | rfl
    · exact typed_textEvent (by rintro ⟨⟩)
    · exact typed_textEvent (Value.isPiece_str "Hi")
    · exact typed_endEvent
  exact ⟨htyped, (assembled_of_events .anthropic _).2 htyped⟩

/-- A text that is a number is handed on. It breaks the stream where the texts are joined: at its
end, or when the text or the message so far is asked for. -/
theorem breaks_of_number :
    Vendor.anthropic.readEvent (textEvent (.int 5)) =
      .ok (.chunk (Reply.chunk (.int 5) [] none none false [])) ∧
    (∃ a, followEvents .anthropic .empty [textEvent (.int 5), textEvent (.str "Hi")] = .ok a ∧
      a.text = misuse .kind ∧ a.result = misuse .kind) ∧
    followEvents .anthropic .empty [textEvent (.int 5), textEvent (.str "Hi"), endEvent] =
      misuse .kind :=
  ⟨rfl, ⟨_, rfl, rfl, rfl⟩, rfl⟩

end Parley.Stream
