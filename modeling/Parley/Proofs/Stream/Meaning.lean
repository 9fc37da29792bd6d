import Mathlib.Data.List.ReduceOption
import Parley.Proofs.Message.Usage
import Parley.Proofs.Stream.Groups

/-!
# What the chunks of a stream mean

A chunk brings a text, call fragments, perhaps a token report, and perhaps the model, the finish
reason and the end of the stream. This file says what message any number of chunks make up, without
an accumulator, and shows that the accumulator makes that message of them.

* `Delta`, `Brings`: what a chunk brings;
* `MakesUp`: the message that chunks make up by what they bring;
* `Holds`: what an accumulator holds after chunks; `holds_feedChunk`, `holds_feedChunks`: a chunk,
  and a run of chunks, preserve it;
* `makesUp_of_chunks`: feeding chunks succeeds, and the result is the message that they make up.
-/

namespace Parley.Stream

/-! ## What a chunk brings -/

/-- What a chunk brings: a text, calls with the indices of the first of them, a token report, and
what it says of the model, the finish reason and the end of the stream. -/
structure Delta where
  text : String := ""
  calls : List TextCall := []
  indices : List Int := []
  usage : Option TokenUsage := none
  model : Value := .null
  finishReason : Value := .null
  complete : Bool := false

namespace Delta

/-- The calls from a position on as fragments. Those beyond the end of the indices have none. -/
def fragmentsFrom (indices : List Int) (position : Nat) (calls : List TextCall) : List Fragment :=
  (calls.zipIdx position).map fun c => ⟨indices[c.2]?, c.1⟩

def fragments (delta : Delta) : List Fragment :=
  fragmentsFrom delta.indices 0 delta.calls

/-- Brings nothing: no text, no call, no report, no name and no end. -/
structure Blank (delta : Delta) : Prop where
  text : delta.text = ""
  calls : delta.calls = []
  usage : delta.usage = none
  model : delta.model = .null
  finishReason : delta.finishReason = .null
  complete : delta.complete = false

end Delta

/-- The metadata of a chunk says what a delta says. The indices may be left out if there are
none. -/
structure Marks (fields : Fields) (delta : Delta) : Prop where
  indices : (fields.value "tool_call_indices" = .null ∧ delta.indices = []) ∨
    fields.value "tool_call_indices" = .list (delta.indices.map .int)
  model : fields.value "model" = delta.model
  finishReason : fields.value "finish_reason" = delta.finishReason
  complete : (fields.value "is_complete").truthy = delta.complete

/-- A well-typed chunk brings a delta: its content is a text or null, its calls consist of texts,
its token counts are numbers, its indices are integers. -/
structure Brings (m : Message) (delta : Delta) : Prop where
  content : m.content = .str delta.text ∨ (m.content = .null ∧ delta.text = "")
  toolCalls : m.toolCalls = delta.calls.map TextCall.toValue
  usage : m.usage = usageValue delta.usage
  counted : ∀ u ∈ delta.usage, u.Counted
  metadata : ∃ fields, m.metadata = .dict fields ∧ Marks fields delta

/-- A chunk of a stream is a well-typed message or null. -/
inductive Chunk : Value → Option Delta → Prop where
  | nothing : Chunk .null none
  | message {m : Message} {delta : Delta} (brings : Brings m delta) : Chunk m.toValue (some delta)

/-! ## What chunks make up -/

def latest (vs : List Value) : Option Value :=
  (vs.filter fun v => !v.isNull).getLast?

def named (deltas : List Delta) (key : String) : Option Value :=
  if key = "model" then latest (deltas.map Delta.model)
  else if key = "finish_reason" then latest (deltas.map Delta.finishReason)
  else none

/-- A message is what deltas make up: their texts joined, a call for each group of their fragments,
their reports merged, and what they name last. -/
structure MakesUp (m : Message) (deltas : List Delta) : Prop where
  role : m.role = .str "assistant"
  content : m.content =
    if String.join (deltas.map Delta.text) = "" && !m.toolCalls.isEmpty then .null
    else .str (String.join (deltas.map Delta.text))
  toolCalls : m.toolCalls =
    (groups (deltas.flatMap Delta.fragments)).map fun group => (whole group).toValue
  usage : ∃ total, TokenUsage.mergeAll (deltas.filterMap Delta.usage) = .ok total ∧
    m.usage = usageValue total
  metadata : ∃ fields, m.metadata = .dict fields ∧ ∀ key, fields.lookup key =
    if key = "is_complete" then some (.bool (deltas.any Delta.complete)) else named deltas key

namespace MakesUp

variable {m : Message} {deltas : List Delta}

/-- The calls of the message are the whole groups. -/
theorem toolCalls_eq {calls : List TextCall} (h : MakesUp m deltas)
    (hcalls : (groups (deltas.flatMap Delta.fragments)).map whole = calls) :
    m.toolCalls = calls.map TextCall.toValue := by
  rw [h.toolCalls, ← hcalls, List.map_map]
  rfl

/-- Its usage is what the reports come to. -/
theorem usage_eq {usage : Option TokenUsage} (h : MakesUp m deltas)
    (husage : TokenUsage.mergeAll (deltas.filterMap Delta.usage) = .ok usage) :
    m.usage = usageValue usage := by
  rcases h.usage with ⟨total, htotal, hreport⟩
  cases husage.symm.trans htotal
  exact hreport

/-- Its model is the latest that was named. -/
theorem get_model (h : MakesUp m deltas) :
    m.metadata.get "model" = .ok ((latest (deltas.map Delta.model)).getD .null) := by
  rcases h.metadata with ⟨fields, hmetadata, hlookup⟩
  simp [hmetadata, Fields.value, Fields.valueOr, hlookup, named]

/-- Its finish reason is the latest that was named. -/
theorem get_finishReason (h : MakesUp m deltas) :
    m.metadata.get "finish_reason" = .ok ((latest (deltas.map Delta.finishReason)).getD .null) := by
  rcases h.metadata with ⟨fields, hmetadata, hlookup⟩
  simp [hmetadata, Fields.value, Fields.valueOr, hlookup, named]

/-- It is complete if one of the deltas was the end. -/
theorem isComplete_eq (h : MakesUp m deltas) : m.isComplete = .ok (deltas.any Delta.complete) := by
  rcases h.metadata with ⟨fields, hmetadata, hlookup⟩
  have hget : m.metadata.get "is_complete" = .ok (.bool (deltas.any Delta.complete)) := by
    simp [hmetadata, Fields.value, Fields.valueOr, hlookup]
  rw [Message.isComplete, Message.flag, Outcome.bind_of_ok hget]
  rfl

end MakesUp

/-! ## Feeding chunks -/

def feedChunk (a : Accumulator) (chunk : Value) : Outcome Accumulator :=
  match feed chunk a with
  | (b, .ok ()) => .ok b
  | (_, .error fault) => .error fault

theorem feed_of_feedChunk {a b : Accumulator} {chunk : Value} (h : feedChunk a chunk = .ok b) :
    feed chunk a = (b, .ok ()) := by
  rw [feedChunk] at h
  split at h
  · cases h
    assumption
  · cases h

def feedChunks (a : Accumulator) (chunks : List Value) : Outcome Accumulator :=
  chunks.foldlM feedChunk a

/-- What an accumulator holds after deltas. -/
structure Holds (a : Accumulator) (deltas : List Delta) : Prop where
  complete : a.isComplete = deltas.any Delta.complete
  texts : a.texts = ((deltas.map Delta.text).flatMap keep).map .str
  calls : List.Forall₂ (Keeps a.unindexed) a.calls (groups (deltas.flatMap Delta.fragments))
  usage : ∃ total, TokenUsage.mergeAll (deltas.filterMap Delta.usage) = .ok total ∧
    a.usage = usageValue total ∧ ∀ u ∈ total, u.Counted
  named : ∀ key, a.named.lookup key = named deltas key

theorem holds_empty : Holds .empty [] where
  complete := rfl
  texts := rfl
  calls := by
    have hnone : groups [] = [] := by simp [groups]
    simp [hnone, Accumulator.empty]
  usage := ⟨none, rfl, rfl, by simp⟩
  named := by
    intro key
    simp [Stream.named, latest, Accumulator.empty]

/-! ### The steps of a chunk -/

theorem Step.andThen_of_ok {first : Step} {a b : Accumulator} (h : first a = (b, .ok ()))
    (second : Step) : first.andThen second a = second b := by
  simp only [Step.andThen, h]

theorem takeText_of_brings {m : Message} {delta : Delta} (h : Brings m delta) (a : Accumulator) :
    takeText m.content a = ({ a with texts := a.texts ++ (keep delta.text).map .str }, .ok ()) := by
  rcases h.content with hcontent | ⟨hcontent, htext⟩
  · by_cases htext : delta.text = "" <;>
      simp [takeText, change, keep, hcontent, htext, Value.truthy]
  · simp [takeText, change, keep, hcontent, htext, Value.truthy]

/-- The index of the fragment at a position is the one that stands there, if there is one. -/
theorem indexAt_of_marks {fields : Fields} {delta : Delta} (h : Marks fields delta)
    (position : Nat) :
    indexAt (fields.value "tool_call_indices") position =
      .ok (delta.indices[position]?.map .int) := by
  rcases h.indices with ⟨hnull, hnone⟩ | hlist
  · simp [indexAt, hnull, hnone]
  · have hsize : (Value.list (delta.indices.map .int)).size = .ok delta.indices.length := by
      simp [Value.size, Value.items, pure, Except.pure, bind, Except.bind]
    simp only [indexAt, hlist, Value.isNull_list, Bool.false_eq_true, if_false,
      Outcome.bind_of_ok hsize]
    by_cases hlt : position < delta.indices.length
    · have hitem : (Value.list (delta.indices.map .int)).item position =
          .ok (.int delta.indices[position]) := by
        simp [Value.item, Value.items, bind, Except.bind, hlt]
        rfl
      simp only [hlt, if_true, Outcome.bind_of_ok hitem, List.getElem?_eq_getElem, Option.map_some]
      rfl
    · simp only [hlt, if_false, List.getElem?_eq_none (Nat.le_of_not_lt hlt), Option.map_none]
      rfl

/-- A fragment is taken in where it is placed. -/
theorem takeFragment_of_marks {fields : Fields} {delta : Delta} (h : Marks fields delta)
    (position : Nat) (call : TextCall) (a : Accumulator) :
    takeFragment (fields.value "tool_call_indices") position call.toValue a =
      ({ a with
        calls := (place (a.calls, a.unindexed) ⟨delta.indices[position]?, call⟩).1
        unindexed := (place (a.calls, a.unindexed) ⟨delta.indices[position]?, call⟩).2 },
        .ok ()) := by
  have hentry : fragmentOf call.toValue = (call.toCall, .ok ()) := fragmentOf_toValue call.toCall
  simp only [takeFragment, indexAt_of_marks h position, depending_ok]
  cases delta.indices[position]? with
  | some index => simp [addFragment, hentry, place]
  | none => simp [addAlone, addFragment, hentry, place]

/-- Fragments are taken in as they are placed, one after another. -/
theorem takeFragments_of_marks {fields : Fields} {delta : Delta} (h : Marks fields delta)
    (calls : List TextCall) (position : Nat) (a : Accumulator) :
    let placed := (Delta.fragmentsFrom delta.indices position calls).foldl place
      (a.calls, a.unindexed)
    takeFragments (fields.value "tool_call_indices") position (calls.map TextCall.toValue) a =
      ({ a with calls := placed.1, unindexed := placed.2 }, .ok ()) := by
  induction calls generalizing position a with
  | nil => rfl
  | cons call rest ih =>
    have hfirst := takeFragment_of_marks h position call a
    simp only [List.map_cons, takeFragments, Step.andThen_of_ok hfirst, ih]
    simp [Delta.fragmentsFrom]

/-- A token report is merged with those before it. -/
theorem takeUsage_of_brings {m : Message} {delta : Delta} {deltas : List Delta}
    {total : Option TokenUsage} (h : Brings m delta)
    (htotal : TokenUsage.mergeAll (deltas.filterMap Delta.usage) = .ok total)
    (hcounted : ∀ u ∈ total, u.Counted) :
    ∃ merged, TokenUsage.mergeAll ((deltas ++ [delta]).filterMap Delta.usage) = .ok merged ∧
      (∀ u ∈ merged, u.Counted) ∧ ∀ a : Accumulator, a.usage = usageValue total →
        takeUsage m.usage a = ({ a with usage := usageValue merged }, .ok ()) := by
  cases hnew : delta.usage with
  | none =>
    have hnull : m.usage = .null := by simp [h.usage, hnew, usageValue]
    refine ⟨total, by simpa [hnew] using htotal, hcounted, ?_⟩
    intro a husage
    rw [hnull, takeUsage_null, ← husage]
    rfl
  | some new =>
    have hnewCounted : new.Counted := h.counted new hnew
    have hreport : m.usage = new.toValue := by simp [h.usage, hnew, usageValue]
    have hreports : (deltas ++ [delta]).filterMap Delta.usage =
        deltas.filterMap Delta.usage ++ [new] := by
      simp [hnew]
    cases total with
    | none =>
      have hfirst : deltas.filterMap Delta.usage = [] := TokenUsage.eq_nil_of_mergeAll htotal
      refine ⟨some new, ?_, by simpa using hnewCounted, ?_⟩
      · rw [hreports, hfirst]
        rfl
      · intro a husage
        simp only [takeUsage, husage, hreport]
        rfl
    | some old =>
      rcases TokenUsage.exists_merge (hcounted old rfl) hnewCounted with
        ⟨merged, hmerged, hmergedCounted⟩
      have hmergeUsage : mergeUsage old.toValue new.toValue = .ok merged.toValue :=
        Outcome.bind_of_ok (f := fun u : TokenUsage => Except.ok u.toValue) hmerged
      refine ⟨some merged, ?_, by simpa using hmergedCounted, ?_⟩
      · rw [hreports]
        exact TokenUsage.mergeAll_append htotal hmerged
      · intro a husage
        simp only [takeUsage, husage, hreport, usageValue, hmergeUsage]
        rfl

/-- A value is remembered unless it is null. -/
theorem remember_eq (key : String) (v : Value) (a : Accumulator) :
    remember key v a =
      ({ a with named := if v.isNull then a.named else Fields.put a.named key v }, .ok ()) := by
  cases h : v.isNull <;> simp [remember, change, h]

/-- The end completes the stream; texts can always be joined. -/
theorem takeEnd_of_texts {a : Accumulator} {texts : List String} (h : a.texts = texts.map .str)
    (complete : Bool) :
    takeEnd (.bool complete) a =
      ({ a with phase := if complete then .completed else a.phase }, .ok ()) := by
  have hjoin : Value.joinTexts a.texts = .ok (String.join texts) := by
    rw [h, Value.joinTexts_map_str]
  cases complete <;>
    simp [takeEnd, Value.truthy, Step.andThen, change, Accumulator.text, hjoin, depending]

theorem latest_append (vs : List Value) (v : Value) :
    latest (vs ++ [v]) = if v.isNull then latest vs else some v := by
  cases h : v.isNull <;> simp [latest, h]

theorem latest_of_null {vs : List Value} (h : ∀ v ∈ vs, v = .null) : latest vs = none := by
  have hnone : vs.filter (fun v => !v.isNull) = [] := by
    simpa [List.filter_eq_nil_iff, Value.isNull_iff] using h
  rw [latest, hnone]
  rfl

/-- One more delta names what it says, and leaves what else was named. -/
theorem named_append (deltas : List Delta) (delta : Delta) (key : String) :
    named (deltas ++ [delta]) key =
      if key = "finish_reason" ∧ delta.finishReason.isNull = false then some delta.finishReason
      else if key = "model" ∧ delta.model.isNull = false then some delta.model
      else named deltas key := by
  rcases eq_or_ne key "finish_reason" with rfl | hreason
  · cases hnull : delta.finishReason.isNull <;> simp [named, latest_append, hnull]
  · cases hnull : delta.model.isNull <;> by_cases hmodel : key = "model" <;>
      simp [named, latest_append, hnull, hreason, hmodel]

/-- A value is remembered under its key unless it is null. -/
theorem lookup_remembered (fields : Fields) (key other : String) (v : Value) :
    (if v.isNull then fields else Fields.put fields key v).lookup other =
      if other = key ∧ v.isNull = false then some v else fields.lookup other := by
  rcases eq_or_ne other key with rfl | hne
  · cases hnull : v.isNull <;> simp
  · cases hnull : v.isNull <;> simp [hne, Fields.lookup_put_of_ne]

/-! ### A chunk and a run of chunks -/

/-- A chunk adds what it brings to what an accumulator holds. -/
theorem holds_feedChunk {a : Accumulator} {deltas : List Delta} {m : Message} {delta : Delta}
    (ha : Holds a deltas) (hopen : a.isComplete = false) (h : Brings m delta) :
    ∃ b, feedChunk a m.toValue = .ok b ∧ Holds b (deltas ++ [delta]) := by
  rcases h.metadata with ⟨fields, hmetadata, hmarks⟩
  rcases ha.usage with ⟨total, htotal, husage, hcounted⟩
  rcases takeUsage_of_brings h htotal hcounted with ⟨merged, hmerged, hmergedCounted, htakeUsage⟩
  have htexts : a.texts ++ (keep delta.text).map .str =
      (((deltas ++ [delta]).map Delta.text).flatMap keep).map .str := by
    simp [ha.texts]
  have hcomplete : deltas.any Delta.complete = false := ha.complete ▸ hopen
  -- the steps are taken one after another, and none of them fails
  let texted : Accumulator :=
    { a with phase := .streaming, texts := a.texts ++ (keep delta.text).map .str }
  let placed := delta.fragments.foldl place (a.calls, a.unindexed)
  let called : Accumulator := { texted with calls := placed.1, unindexed := placed.2 }
  let counted : Accumulator := { called with usage := usageValue merged }
  let modelled : Accumulator := { counted with
    named := if delta.model.isNull then a.named else Fields.put a.named "model" delta.model }
  let reasoned : Accumulator := { modelled with
    named := if delta.finishReason.isNull then modelled.named
      else Fields.put modelled.named "finish_reason" delta.finishReason }
  let b : Accumulator :=
    { reasoned with phase := if delta.complete then .completed else .streaming }
  have htext : takeText m.content { a with phase := .streaming } = (texted, .ok ()) :=
    takeText_of_brings h _
  have hcalls : takeFragments (Fields.value fields "tool_call_indices") 0 m.toolCalls texted =
      (called, .ok ()) := by
    rw [h.toolCalls]
    exact takeFragments_of_marks hmarks delta.calls 0 texted
  have hreport : takeUsage m.usage called = (counted, .ok ()) := htakeUsage called husage
  have hmodel : remember "model" (Fields.value fields "model") counted = (modelled, .ok ()) := by
    rw [hmarks.model]
    exact remember_eq "model" delta.model counted
  have hreason : remember "finish_reason" (Fields.value fields "finish_reason") modelled =
      (reasoned, .ok ()) := by
    rw [hmarks.finishReason]
    exact remember_eq "finish_reason" delta.finishReason modelled
  have hend : takeEnd (.bool (Fields.value fields "is_complete").truthy) reasoned =
      (b, .ok ()) := by
    rw [hmarks.complete]
    exact takeEnd_of_texts (a := reasoned) htexts delta.complete
  have hsteps : take m.toValue { a with phase := .streaming } = (b, .ok ()) := by
    rw [take_toValue m hmetadata, Step.andThen_of_ok htext, Step.andThen_of_ok hcalls,
      Step.andThen_of_ok hreport, Step.andThen_of_ok hmodel, Step.andThen_of_ok hreason, hend]
  have hfeed : feed m.toValue a = (b, .ok ()) := by
    have hnull : m.toValue.isNull = false := rfl
    simpa only [feed, hnull, hopen, Bool.false_eq_true, if_false] using hsteps
  refine ⟨b, by rw [feedChunk, hfeed], ?_⟩
  exact
    { complete := by
        cases hend : delta.complete <;> simp [b, Accumulator.isComplete, hend, hcomplete]
      texts := htexts
      calls := by
        have hkept : List.Forall₂ (Keeps placed.2) placed.1
            (groups (deltas.flatMap Delta.fragments ++ delta.fragments)) :=
          keeps_foldl delta.fragments ha.calls
        simpa using hkept
      usage := ⟨merged, hmerged, rfl, hmergedCounted⟩
      named := by
        intro key
        simp only [b, reasoned, modelled, lookup_remembered, named_append, ha.named] }

/-- An accumulator can go on if none of the deltas before the last, among them all it holds, is the
end. -/
theorem Holds.isComplete_of_open {a : Accumulator} {before later : List Delta} {delta : Delta}
    (h : Holds a before)
    (hopen : ∀ d ∈ (before ++ delta :: later).dropLast, d.complete = false) :
    a.isComplete = false := by
  rw [h.complete, List.any_eq_false]
  intro earlier hearlier
  simp [hopen earlier (by simp [List.dropLast_append_of_ne_nil, hearlier])]

/-- Chunks add what they bring to what an accumulator holds, if the stream goes on until the last
of them. -/
theorem holds_feedChunks {chunks : List Value} {deltas : List (Option Delta)} {a : Accumulator}
    {before : List Delta} (h : List.Forall₂ Chunk chunks deltas) (ha : Holds a before)
    (hopen : ∀ delta ∈ (before ++ deltas.reduceOption).dropLast, delta.complete = false) :
    ∃ b, feedChunks a chunks = .ok b ∧ Holds b (before ++ deltas.reduceOption) := by
  induction h generalizing a before with
  | nil => exact ⟨a, rfl, by simpa using ha⟩
  | @cons chunk delta chunks deltas hchunk hrest ih =>
    cases hchunk with
    | nothing =>
      -- null is skipped, whether the stream is over or not
      rcases ih ha (by simpa using hopen) with ⟨b, hfeed, hb⟩
      exact ⟨b, hfeed, by simpa using hb⟩
    | @message m delta brings =>
      have hgoing : a.isComplete = false := ha.isComplete_of_open (by simpa using hopen)
      rcases holds_feedChunk ha hgoing brings with ⟨b, hfirst, hb⟩
      rcases ih hb (by simpa using hopen) with ⟨c, hlater, hc⟩
      refine ⟨c, ?_, by simpa using hc⟩
      rw [feedChunks, List.foldlM_cons, Outcome.bind_of_ok hfirst]
      exact hlater

/-! ## The result -/

/-- The message of an accumulator is what the deltas make up after which it holds what it holds. -/
theorem makesUp_of_holds {a : Accumulator} {deltas : List Delta} (h : Holds a deltas) :
    ∃ m, a.result = .ok m ∧ MakesUp m deltas := by
  have htext : a.text = .ok (String.join (deltas.map Delta.text)) := by
    rw [Accumulator.text, h.texts, Value.joinTexts_map_str, join_flatMap_keep]
  have hfinish := mapM_finish_of_keeps h.calls
  have hnone : a.calls.isEmpty = (groups (deltas.flatMap Delta.fragments)).isEmpty :=
    isEmpty_of_forall₂ h.calls
  rcases h.usage with ⟨total, htotal, husage, -⟩
  have hresult : a.result = .ok
      { role := .str "assistant"
        content := if String.join (deltas.map Delta.text) = "" && !a.calls.isEmpty then .null
          else .str (String.join (deltas.map Delta.text))
        toolCalls := (((groups (deltas.flatMap Delta.fragments)).map whole).map
          TextCall.toCall).map ToolCall.toValue
        usage := a.usage
        metadata := .dict (a.named ++ [("is_complete", .bool a.isComplete)]) } := by
    rw [Accumulator.result, Outcome.bind_of_ok htext, Outcome.bind_of_ok hfinish]
    rfl
  refine ⟨_, hresult, ?_⟩
  exact
    { role := rfl
      content := by simp [hnone]
      toolCalls := by simp [Function.comp_def, TextCall.toValue]
      usage := ⟨total, htotal, husage⟩
      metadata := by
        refine ⟨_, rfl, ?_⟩
        intro key
        rw [List.lookup_append, h.named, h.complete]
        rcases eq_or_ne key "is_complete" with rfl | hne
        · simp [named]
        · have hother : (key == "is_complete") = false := by simpa using hne
          simp [List.lookup_cons, hother, hne] }

/-- Feeding well-typed chunks, of which none before the last message ends the stream, succeeds, and
the result is the message that they make up. -/
theorem makesUp_of_chunks {chunks : List Value} {deltas : List (Option Delta)}
    (h : List.Forall₂ Chunk chunks deltas)
    (hopen : ∀ delta ∈ deltas.reduceOption.dropLast, delta.complete = false) :
    ∃ a m, feedChunks .empty chunks = .ok a ∧ a.result = .ok m ∧
      MakesUp m deltas.reduceOption := by
  rcases holds_feedChunks h holds_empty hopen with ⟨a, hfeed, ha⟩
  rcases makesUp_of_holds ha with ⟨m, hresult, hm⟩
  exact ⟨a, m, hfeed, hresult, hm⟩

/-- Three calls that arrive in seven fragments. The first chunk has an index for two of its three
fragments, and the last one more indices than fragments. -/
def seatDeltas : List (Option Delta) :=
  [some {
      text := "Let me "
      calls := [⟨"", "seats", r"{"⟩, ⟨"t2", "", ""⟩, ⟨"t3", "now", ""⟩]
      indices := [4, 7]
      usage := some ⟨.int 7, .null, .null⟩
      model := .str "m1" },
    none,
    some {
      calls := [⟨"", "rows", "{}"⟩, ⟨"t1", "other", "\"row\":"⟩]
      indices := [7, 4] },
    some {
      text := "see."
      calls := [⟨"t9", "", r" 3}"⟩]
      indices := [4, 7, 8]
      usage := some ⟨.null, .int 5, .null⟩
      finishReason := .str "tool_use"
      complete := true },
    none]

def Delta.toMessage (delta : Delta) : Message where
  role := .str "assistant"
  content := .str delta.text
  toolCalls := delta.calls.map TextCall.toValue
  usage := usageValue delta.usage
  metadata := .dict [("is_complete", .bool delta.complete), ("model", delta.model),
    ("finish_reason", delta.finishReason), ("tool_call_indices", .list (delta.indices.map .int))]

/-- A delta as a message brings the delta. -/
theorem brings_toMessage {delta : Delta} (h : ∀ u ∈ delta.usage, u.Counted) :
    Brings delta.toMessage delta where
  content := .inl rfl
  toolCalls := rfl
  usage := rfl
  counted := h
  metadata := by
    refine ⟨_, rfl, .inr ?_, ?_, ?_, ?_⟩ <;> simp [Value.truthy]

theorem chunk_toMessage {deltas : List (Option Delta)}
    (h : ∀ delta ∈ deltas.reduceOption, ∀ u ∈ delta.usage, u.Counted) :
    List.Forall₂ Chunk (deltas.map fun delta => (delta.map fun d => d.toMessage.toValue).getD .null)
      deltas := by
  induction deltas with
  | nil => exact .nil
  | cons delta rest ih =>
    cases delta with
    | none => exact .cons .nothing (ih h)
    | some delta =>
      have hfirst := brings_toMessage (h delta (by simp))
      exact .cons (.message hfirst) (ih fun d hd => h d (by simp [hd]))

/-- Fragments under three indices and one on its own make up calls in the order in which they begin.
-/
theorem makesUp_of_chunks_seats :
    ∃ a m, feedChunks .empty
        (seatDeltas.map fun delta => (delta.map fun d => d.toMessage.toValue).getD .null) = .ok a ∧
      a.result = .ok m ∧ m.content = .str "Let me see." ∧
      m.toolCalls = [TextCall.toValue ⟨"t1", "seats", r#"{"row": 3}"#⟩,
        TextCall.toValue ⟨"t2", "rows", "{}"⟩, TextCall.toValue ⟨"t3", "now", "{}"⟩] ∧
      m.usage = (TokenUsage.mk (.int 7) (.int 5) (.int 12)).toValue := by
  have hcounted : ∀ delta ∈ seatDeltas.reduceOption, ∀ u ∈ delta.usage, u.Counted := by
    have hfirst : (TokenUsage.mk (.int 7) .null .null).Counted :=
      ⟨.inr ⟨7, rfl⟩, .inl rfl, .inl rfl⟩
    have hlast : (TokenUsage.mk .null (.int 5) .null).Counted := ⟨.inl rfl, .inr ⟨5, rfl⟩, .inl rfl⟩
    simpa [seatDeltas] using ⟨hfirst, hlast⟩
  rcases makesUp_of_chunks (chunk_toMessage hcounted) (by simp [seatDeltas]) with
    ⟨a, m, hfeed, hresult, hm⟩
  have hcalls : m.toolCalls = [TextCall.toValue ⟨"t1", "seats", r#"{"row": 3}"#⟩,
      TextCall.toValue ⟨"t2", "rows", "{}"⟩, TextCall.toValue ⟨"t3", "now", "{}"⟩] := by
    rw [hm.toolCalls]
    simp [seatDeltas, Delta.fragments, Delta.fragmentsFrom, groups, Fragment.others, Fragment.joins,
      whole, firstText]
  refine ⟨a, m, hfeed, hresult, ?_, hcalls, hm.usage_eq rfl⟩
  rw [hm.content, hcalls]
  simp [seatDeltas]

end Parley.Stream
