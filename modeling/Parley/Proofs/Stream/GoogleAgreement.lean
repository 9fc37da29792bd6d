import Parley.Proofs.Stream.Agreement
import Parley.Proofs.Stream.Events

/-!
# Streamed and complete content generations agree

A candidate is a list of parts. The service delivers them in a response, or deals them over the
events of a stream, where a text may be cut further; an event need not bring any part. No call of a
stream has an index, so no event goes on with a call of another, and each is whole where it stands.

* `Cut`: parts of which the texts may have been cut;
* `reads_of_shows`: an event is read as a chunk that adds what the event shows, or as nothing;
* `Candidate.agree_of_deliveries`: the message of the stream agrees with the message of the
  response.
-/

namespace Parley.Stream.Google

open Parley.Google

/-! ## Candidates and how they are delivered -/

/-- A candidate: its parts, the model that made it, why it stopped, and its token counts as far as
they are reported. -/
structure Candidate where
  parts : List ReplyPart
  model : Value
  finishReason : String
  counts : TokenUsage
  counted : counts.Counted

def speech (parts : List ReplyPart) : Speech :=
  .join (parts.map ReplyPart.speech)

/-- A response or an event reports token counts. -/
structure Reports (raw : Value) (counts : TokenUsage) : Prop where
  prompt : (raw.field ["usage_metadata", "usageMetadata"] .null).field
    ["prompt_token_count", "promptTokenCount"] .null = counts.prompt
  completion : (raw.field ["usage_metadata", "usageMetadata"] .null).field
    ["candidates_token_count", "candidatesTokenCount"] .null = counts.completion
  total : (raw.field ["usage_metadata", "usageMetadata"] .null).field
    ["total_token_count", "totalTokenCount"] .null = counts.total

/-- A response that holds a candidate. -/
inductive Candidate.InResponse (candidate : Candidate) (response : Value) : Prop where
  | response {raw : Value} {others raws : List Value}
      (candidates : response.read "candidates" = .list (raw :: others))
      (content : ((raw.read "content").read "parts").ifNull (.list []) = .list raws)
      (parts : List.Forall₂ IsPart raws candidate.parts)
      (reason : finishReasonOf raw = .str candidate.finishReason)
      (model : modelOf response = candidate.model) (usage : Reports response candidate.counts)

/-- What an event adds: some parts, a model and token counts. -/
structure Increment where
  parts : List ReplyPart
  model : Value
  counts : TokenUsage
  counted : counts.Counted

/-- An event that shows an increment and a finish reason. Without a candidate it has only counts. -/
inductive Shows (event : Value) (increment : Increment) : Value → Prop where
  | candidate {raw : Value} {others raws : List Value}
      (candidates : event.read "candidates" = .list (raw :: others))
      (content : ((raw.read "content").read "parts").ifNull (.list []) = .list raws)
      (parts : List.Forall₂ IsPart raws increment.parts) (model : modelOf event = increment.model)
      (usage : Reports event increment.counts) : Shows event increment (finishReasonOf raw)
  | bare (candidates : (event.read "candidates").truthy = false) (parts : increment.parts = [])
      (usage : Reports event increment.counts) : Shows event increment .null

/-- Parts after some of the texts among them have been cut into pieces. -/
inductive Cut : List ReplyPart → List ReplyPart → Prop where
  | nil : Cut [] []
  | text {text : String} {parts cut : List ReplyPart} (pieces : List String)
      (whole : String.join pieces = text) (rest : Cut parts cut) :
      Cut (.text text :: parts) (pieces.map .text ++ cut)
  | keep {parts cut : List ReplyPart} (part : ReplyPart) (rest : Cut parts cut) :
      Cut (part :: parts) (part :: cut)

/-- A stream that delivers a candidate. Only the last event has the finish reason. It reports the
counts and names the model; earlier events may do so too, as long as the last leaves nothing of it
out. -/
inductive Candidate.InStream (candidate : Candidate) : List Value → Prop where
  | events {early : List Value} {last : Value} {increments : List Increment} {final : Increment}
      (shows : List.Forall₂ (fun event increment => Shows event increment .null) early increments)
      (ends : Shows last final (.str candidate.finishReason))
      (parts : Cut candidate.parts ((increments ++ [final]).flatMap Increment.parts))
      (counts : final.counts = candidate.counts) (model : final.model = candidate.model)
      (reported : (candidate.counts.prompt.isNull = false ∧
          candidate.counts.completion.isNull = false) ∨
        ∀ increment ∈ increments, increment.counts = .unreported)
      (named : candidate.model.isNull = false ∨ ∀ increment ∈ increments, increment.model = .null) :
      InStream candidate (early ++ [last])

/-! ## What parts say -/

theorem speech_cons (part : ReplyPart) (parts : List ReplyPart) :
    speech (part :: parts) =
      ⟨part.speech.text ++ (speech parts).text, part.speech.calls ++ (speech parts).calls⟩ := by
  ext1 <;> simp [speech]

/-- What parts say is what the first of them say, and then what the others do. -/
theorem speech_append (parts others : List ReplyPart) :
    speech (parts ++ others) = ⟨(speech parts).text ++ (speech others).text,
      (speech parts).calls ++ (speech others).calls⟩ := by
  ext1 <;> simp [speech, Speech.join]

theorem speech_texts (pieces : List String) :
    speech (pieces.map .text) = ⟨String.join pieces, []⟩ := by
  induction pieces with
  | nil => rfl
  | cons piece rest ih => simp [speech_cons, ih, ReplyPart.speech, String.join_cons]

/-- A cut text says the same. -/
theorem speech_of_cut {parts cut : List ReplyPart} (h : Cut parts cut) :
    speech cut = speech parts := by
  induction h with
  | nil => rfl
  | text pieces whole _ ih =>
    simp [speech_append, speech_texts, speech_cons, ReplyPart.speech, whole, ih]
  | keep part _ ih => simp [speech_cons, ih]

/-- Counts that are reported are read as a report of them. -/
theorem usageOf_of_reports {raw : Value} {counts : TokenUsage} (h : Reports raw counts) :
    usageOf raw = TokenUsage.report counts.prompt counts.completion counts.total := by
  rw [usageOf_eq, h.prompt, h.completion, h.total]

/-! ## Reading an event -/

/-- A delta adds an increment. The model is lost if the event brings nothing else. -/
structure Adds (delta : Delta) (increment : Increment) (reason : Value) : Prop where
  text : delta.text = (speech increment.parts).text
  calls : List.Forall₂ Makes (speech increment.parts).calls delta.calls
  indices : delta.indices = []
  usage : TokenUsage.report increment.counts.prompt increment.counts.completion
    increment.counts.total = .ok delta.usage
  counted : ∀ u ∈ delta.usage, u.Counted
  model : delta.model = increment.model ∨ (delta.model = .null ∧ reason = .null)
  finishReason : delta.finishReason = reason
  complete : delta.complete = !reason.isNull

/-- What an event brings that shows an increment, with the calls that its parts make. -/
def Increment.delta (increment : Increment) (calls : List TextCall) (usage : Option TokenUsage)
    (reason : Value) : Delta where
  text := (speech increment.parts).text
  calls := calls
  usage := usage
  model := increment.model
  finishReason := reason
  complete := !reason.isNull

/-- An event with a candidate gives a chunk of what it shows, or nothing if it shows nothing. -/
theorem chunkOf_of_candidate (tag : String) {event raw : Value} {others raws : List Value}
    {parts : List ReplyPart} {usage : Option TokenUsage}
    (hcandidates : event.read "candidates" = .list (raw :: others))
    (hcontent : ((raw.read "content").read "parts").ifNull (.list []) = .list raws)
    (hparts : List.Forall₂ IsPart raws parts) (husage : usageOf event = .ok usage) :
    ∃ calls : List TextCall, List.Forall₂ Makes (speech parts).calls calls ∧
      chunkOf tag event = .ok
        (if (speech parts).text = "" && calls.isEmpty && (finishReasonOf raw).isNull && usage.isNone
          then none
        else some (Reply.chunk (.str (speech parts).text) (calls.map TextCall.toCall) none usage
          (!(finishReasonOf raw).isNull)
          [("finish_reason", finishReasonOf raw), ("model", modelOf event)])) := by
  rcases candidateOf_of_parts tag hcontent hparts with ⟨calls, hcandidate, hmakes⟩
  have hitem : (Value.list (raw :: others)).item 0 = .ok raw := rfl
  refine ⟨calls, hmakes, ?_⟩
  rw [chunkOf, Outcome.bind_of_ok husage]
  simp only [hcandidates, Value.truthy, List.isEmpty_cons, Bool.not_false, Bool.not_true,
    Bool.false_eq_true, if_false]
  rw [Outcome.bind_of_ok hitem, Outcome.bind_of_ok hcandidate]
  dsimp only
  rw [List.isEmpty_map, Bool.not_not]
  by_cases hnothing : ((speech parts).text = "" && calls.isEmpty && (finishReasonOf raw).isNull &&
      usage.isNone) = true
  · rw [if_pos hnothing]
    exact if_pos hnothing
  · rw [if_neg hnothing]
    exact if_neg hnothing

/-- An event is read as a chunk that adds what the event shows, or as nothing. -/
theorem reads_of_shows (tag : String) {event : Value} {increment : Increment} {reason : Value}
    (h : Shows event increment reason) :
    ∃ delta, Reads (.google tag) event delta ∧ Adds delta increment reason := by
  rcases TokenUsage.exists_report increment.counted.prompt increment.counted.completion
    increment.counted.total with ⟨usage, husage, hcounted⟩
  cases h with
  | @candidate raw others raws candidates content parts model reports =>
    rcases chunkOf_of_candidate tag candidates content parts
      ((usageOf_of_reports reports).trans husage) with ⟨calls, hmakes, hchunk⟩
    by_cases hnothing : ((speech increment.parts).text = "" && calls.isEmpty &&
        (finishReasonOf raw).isNull && usage.isNone) = true
    · -- a model alone is not worth a chunk, and is lost
      rw [if_pos hnothing] at hchunk
      simp only [Bool.and_eq_true, decide_eq_true_eq, List.isEmpty_iff, Value.isNull_iff,
        Option.isNone_iff_eq_none] at hnothing
      rcases hnothing with ⟨⟨⟨htext, rfl⟩, hopen⟩, rfl⟩
      have hread : (Vendor.google tag).readEvent event = .ok .nothing :=
        congrArg Reading.ofOutcome hchunk
      refine ⟨{}, .nothing hread ⟨rfl, rfl, rfl, rfl, rfl, rfl⟩, ?_⟩
      exact ⟨htext.symm, hmakes, rfl, husage, by simp, .inr ⟨rfl, hopen⟩, hopen.symm,
        by simp [hopen]⟩
    · rw [if_neg hnothing] at hchunk
      refine ⟨increment.delta calls usage (finishReasonOf raw),
        .chunk (congrArg Reading.ofOutcome hchunk) ?_,
        ⟨rfl, hmakes, rfl, husage, hcounted, .inl rfl, rfl, rfl⟩⟩
      apply brings_chunk (increment.delta calls usage (finishReasonOf raw))
      · exact .inl rfl
      · exact .inl ⟨rfl, rfl⟩
      · exact hcounted
      · simp
      · simp
      · simp [Increment.delta, model]
      · simp [Increment.delta]
  | bare candidates parts reports =>
    have hsaid : speech increment.parts = ⟨"", []⟩ := by
      rw [parts]
      rfl
    have hcalls : List.Forall₂ Makes (speech increment.parts).calls [] := by
      rw [hsaid]
      exact .nil
    have hchunk : chunkOf tag event = .ok (usage.map fun u =>
        Reply.chunk .null [] none (some u) false []) := by
      rw [chunkOf, Outcome.bind_of_ok ((usageOf_of_reports reports).trans husage)]
      simp only [candidates, Bool.not_false, if_true]
      cases usage <;> rfl
    refine ⟨{ usage := usage }, ?_,
      ⟨by rw [hsaid], hcalls, rfl, husage, hcounted, .inr ⟨rfl, rfl⟩, rfl, rfl⟩⟩
    cases usage with
    | none => exact .nothing (congrArg Reading.ofOutcome hchunk) ⟨rfl, rfl, rfl, rfl, rfl, rfl⟩
    | some u =>
      refine .chunk (congrArg Reading.ofOutcome hchunk) ?_
      exact brings_chunk { usage := some u } (.inr ⟨rfl, rfl⟩) (.inl ⟨rfl, rfl⟩) hcounted .nil rfl
        rfl rfl

/-! ## Reading a stream -/

/-- Without indices every call is a fragment on its own. -/
theorem fragments_of_unlisted {delta : Delta} (h : delta.indices = []) :
    delta.fragments = delta.calls.map (Fragment.mk none) := by
  calc
    delta.fragments
        = (delta.calls.zipIdx.map Prod.fst).map (Fragment.mk none) := by
          rw [List.map_map]
          simp [Delta.fragments, Delta.fragmentsFrom, h, Function.comp_def]
    _ = delta.calls.map (Fragment.mk none) := by
          rw [List.zipIdx_map_fst]

section Adding

variable {deltas : List Delta} {increments : List Increment}
  (h : List.Forall₂ (fun delta increment => ∃ reason, Adds delta increment reason) deltas
    increments)

include h

/-- Deltas that add parts bring the texts of the parts. -/
theorem text_of_adds :
    String.join (deltas.map Delta.text) = (speech (increments.flatMap Increment.parts)).text := by
  induction h with
  | nil => rfl
  | cons hfirst _ ih =>
    rcases hfirst with ⟨reason, hadds⟩
    simp [String.join_cons, speech_append, hadds.text, ih]

/-- They bring the calls of the parts, too. -/
theorem makes_of_adds :
    List.Forall₂ Makes (speech (increments.flatMap Increment.parts)).calls
      (deltas.flatMap Delta.calls) := by
  induction h with
  | nil => exact .nil
  | cons hfirst _ ih =>
    rcases hfirst with ⟨reason, hadds⟩
    rw [List.flatMap_cons, List.flatMap_cons, speech_append]
    exact List.rel_append hadds.calls ih

/-- The calls have no indices. -/
theorem fragments_of_adds :
    deltas.flatMap Delta.fragments = (deltas.flatMap Delta.calls).map (Fragment.mk none) := by
  induction h with
  | nil => rfl
  | cons hfirst _ ih =>
    rcases hfirst with ⟨reason, hadds⟩
    rw [List.flatMap_cons, List.flatMap_cons, List.map_append, ih,
      fragments_of_unlisted hadds.indices]

end Adding

/-- A call that stands alone is whole, for its arguments have a text. -/
theorem whole_of_makes {asked : AskedCall} {call : TextCall} (h : Makes asked call) :
    whole [⟨none, call⟩] = call := by
  have hone : ∀ text, firstText [text] = text := by
    intro text
    exact firstText_of_first (by simp)
  simp [whole, hone, h.arguments_ne]

/-- Fragments on their own are whole calls. -/
theorem map_whole_alone {asked : List AskedCall} {calls : List TextCall}
    (h : List.Forall₂ Makes asked calls) :
    (groups (calls.map (Fragment.mk none))).map whole = calls := by
  rw [groups_of_alone (by simp)]
  induction h with
  | nil => rfl
  | cons hcall _ ih => simpa [whole_of_makes hcall] using ih

/-- The events before the last are read as chunks that add what they show. -/
theorem reads_of_early {deliveries : List (String × Value)} {increments : List Increment}
    (h : List.Forall₂ (fun delivery increment => Shows delivery.2 increment .null) deliveries
      increments) :
    ∃ deltas, List.Forall₂ (fun (event : Vendor × Value) delta => Reads event.1 event.2 delta)
        (deliveries.map fun delivery => (Vendor.google delivery.1, delivery.2)) deltas ∧
      List.Forall₂ (fun delta increment => Adds delta increment .null) deltas increments := by
  have hread := h.imp fun delivery _ hshows => reads_of_shows delivery.1 hshows
  rcases exists_list_between hread with ⟨deltas, hreads, hadds⟩
  exact ⟨deltas, List.forall₂_map_left_iff.2 hreads, hadds⟩

section Early

variable {deltas : List Delta} {increments : List Increment}
  (h : List.Forall₂ (fun delta increment => Adds delta increment .null) deltas increments)

include h

/-- No part ends the stream before the last one does. -/
theorem open_of_early : ∀ delta ∈ deltas, delta.complete = false := by
  intro delta hmem
  rcases exists_of_mem_left h hmem with ⟨increment, -, hadds⟩
  exact hadds.complete

/-- The token report is the one of the last event, if that leaves out nothing or is the only one. -/
theorem mergeAll_of_adds {last : Delta} {final : Increment} {reason : Value}
    (hlast : Adds last final reason)
    (hreported : (final.counts.prompt.isNull = false ∧ final.counts.completion.isNull = false) ∨
      ∀ increment ∈ increments, increment.counts = .unreported) :
    TokenUsage.mergeAll ((deltas ++ [last]).filterMap Delta.usage) = .ok last.usage := by
  rcases hreported with ⟨hprompt, hcompletion⟩ | hnone
  · rcases TokenUsage.exists_full_report final.counted hprompt hcompletion with
      ⟨usage, husage, hfull, -⟩
    have hsome : last.usage = some usage := Except.ok.inj (hlast.usage.symm.trans husage)
    have hcounted : ∀ u ∈ deltas.filterMap Delta.usage, u.Counted := by
      intro u hu
      rcases List.mem_filterMap.1 hu with ⟨delta, hmem, hreport⟩
      rcases exists_of_mem_left h hmem with ⟨increment, -, hadds⟩
      exact hadds.counted u hreport
    have hreports : (deltas ++ [last]).filterMap Delta.usage =
        deltas.filterMap Delta.usage ++ [usage] := by
      simp [hsome]
    rw [hreports, hsome]
    exact TokenUsage.mergeAll_of_full hcounted hfull
  · have hunreported : deltas.filterMap Delta.usage = [] := by
      rw [List.filterMap_eq_nil_iff]
      intro delta hmem
      rcases exists_of_mem_left h hmem with ⟨increment, hincrement, hadds⟩
      have husage := hadds.usage
      rw [hnone increment hincrement] at husage
      exact (Except.ok.inj husage).symm
    have hreports : (deltas ++ [last]).filterMap Delta.usage = last.usage.toList := by
      cases hlastUsage : last.usage <;> simp [hunreported, hlastUsage]
    rw [hreports]
    exact TokenUsage.mergeAll_toList last.usage

/-- The model is the one that the last event names, if it names one or is the only one to do so. -/
theorem latest_of_adds {last : Delta} {final : Increment} {reason : String}
    (hlast : Adds last final (.str reason))
    (hnamed : final.model.isNull = false ∨ ∀ increment ∈ increments, increment.model = .null) :
    (latest ((deltas ++ [last]).map Delta.model)).getD .null = final.model := by
  -- an event with a finish reason always gives a chunk, so its model is not lost
  have hmodel : last.model = final.model := by
    rcases hlast.model with hmodel | ⟨-, hreason⟩
    · exact hmodel
    · cases hreason
  rw [List.map_append, List.map_singleton, latest_append, hmodel]
  rcases hnamed with hsome | hnone
  · simp [hsome]
  · have hearly : latest (deltas.map Delta.model) = none := by
      apply latest_of_null
      intro v hv
      rcases List.mem_map.1 hv with ⟨delta, hmem, rfl⟩
      rcases exists_of_mem_left h hmem with ⟨increment, hincrement, hadds⟩
      rcases hadds.model with hmodel | ⟨hnull, -⟩
      · rw [hmodel, hnone increment hincrement]
      · exact hnull
    cases hnull : final.model.isNull with
    | true => simp [hearly, Value.isNull_iff.1 hnull]
    | false => simp

end Early

/-! ## Agreement -/

/-- Two calls of the same function with the same arguments. The ids may differ where the vendor gave
none. -/
structure SameFunction (call other : TextCall) : Prop where
  name : call.name = other.name
  arguments : call.arguments = other.arguments

/-- Calls made of the same parts differ in nothing but the ids that were made up. -/
theorem sameFunction_of_makes {asked : List AskedCall} {calls others : List TextCall}
    (hcalls : List.Forall₂ Makes asked calls) (hothers : List.Forall₂ Makes asked others) :
    List.Forall₂ SameFunction calls others := by
  induction hcalls generalizing others with
  | nil =>
    cases hothers
    exact .nil
  | cons hcall _ ih =>
    cases hothers with
    | cons hother hrest =>
      have harguments := hcall.arguments.symm.trans hother.arguments
      exact .cons ⟨hcall.name.trans hother.name.symm, Except.ok.inj harguments⟩ (ih hrest)

namespace Candidate

variable {candidate : Candidate}

/-- A message that is read from a candidate, with some calls and some usage. -/
structure ReadAs (candidate : Candidate) (calls : List TextCall) (usage : Option TokenUsage)
    (m : Message) : Prop where
  role : m.role = .str "assistant"
  content : m.content = (speech candidate.parts).content
  toolCalls : m.toolCalls = calls.map TextCall.toValue
  makes : List.Forall₂ Makes (speech candidate.parts).calls calls
  usage : m.usage = usageValue usage
  model : m.metadata.get "model" = .ok candidate.model
  finishReason : m.metadata.get "finish_reason" = .ok (.str candidate.finishReason)

/-- Two messages that are read from one candidate are alike. -/
theorem ReadAs.agree {calls others : List TextCall} {usage : Option TokenUsage}
    {single streamed : Message} (hsingle : candidate.ReadAs calls usage single)
    (hstreamed : candidate.ReadAs others usage streamed) : Agree SameFunction single streamed where
  role := hsingle.role.trans hstreamed.role.symm
  content := hsingle.content.trans hstreamed.content.symm
  calls := ⟨calls, others, hsingle.toolCalls, hstreamed.toolCalls,
    sameFunction_of_makes hsingle.makes hstreamed.makes⟩
  usage := hsingle.usage.trans hstreamed.usage.symm
  model := hsingle.model.trans hstreamed.model.symm
  finishReason := hsingle.finishReason.trans hstreamed.finishReason.symm

/-- A response is read as the candidate that it holds. -/
theorem readReply_of_inResponse (tag : String) {response : Value} {usage : Option TokenUsage}
    (h : candidate.InResponse response)
    (husage : TokenUsage.report candidate.counts.prompt candidate.counts.completion
      candidate.counts.total = .ok usage) :
    ∃ single calls, (Vendor.google tag).readReply response = .ok single ∧
      candidate.ReadAs calls usage single := by
  rcases h with @⟨raw, others, raws, candidates, content, parts, reason, model, reports⟩
  rcases replyOf_of_candidate tag candidates content parts
    ((usageOf_of_reports reports).trans husage) with ⟨calls, hread, hmakes⟩
  rw [reason, model] at hread
  refine ⟨_, calls, by rw [Vendor.readReply, hread, Reply.checked_ok], rfl, ?_, ?_, hmakes, rfl,
    rfl, rfl⟩
  · exact Reply.content_message usage _ _ hmakes
  · simp [Reply.message, TextCall.toValue, Function.comp_def]

/-- Deltas that add the parts of a candidate, the last with what is said of it, make up a message
that is read from it. -/
theorem readAs_of_makesUp {deltas : List Delta} {increments : List Increment} {last : Delta}
    {final : Increment} {usage : Option TokenUsage} {streamed : Message}
    (hearly : List.Forall₂ (fun delta increment => Adds delta increment .null) deltas increments)
    (hlast : Adds last final (.str candidate.finishReason))
    (parts : Cut candidate.parts ((increments ++ [final]).flatMap Increment.parts))
    (model : final.model = candidate.model) (husage : last.usage = usage)
    (reported : (final.counts.prompt.isNull = false ∧ final.counts.completion.isNull = false) ∨
      ∀ increment ∈ increments, increment.counts = .unreported)
    (named : final.model.isNull = false ∨ ∀ increment ∈ increments, increment.model = .null)
    (h : MakesUp streamed (deltas ++ [last])) :
    candidate.ReadAs ((deltas ++ [last]).flatMap Delta.calls) usage streamed ∧
      streamed.isComplete = .ok true := by
  have hall : List.Forall₂ (fun delta increment => ∃ reason, Adds delta increment reason)
      (deltas ++ [last]) (increments ++ [final]) :=
    List.rel_append (hearly.imp fun _ _ hadds => ⟨_, hadds⟩) (.cons ⟨_, hlast⟩ .nil)
  have hmakes := makes_of_adds hall
  have htext := text_of_adds hall
  rw [speech_of_cut parts] at hmakes htext
  have htoolCalls : streamed.toolCalls =
      ((deltas ++ [last]).flatMap Delta.calls).map TextCall.toValue := by
    apply h.toolCalls_eq
    rw [fragments_of_adds hall]
    exact map_whole_alone hmakes
  have hmerged := mergeAll_of_adds hearly hlast reported
  rw [husage] at hmerged
  refine ⟨⟨h.role, ?_, htoolCalls, hmakes, h.usage_eq hmerged, ?_, ?_⟩, ?_⟩
  · simp only [h.content, htext, htoolCalls, List.isEmpty_map, Speech.content,
      isEmpty_of_forall₂ hmakes]
  · rw [h.get_model, latest_of_adds hearly hlast named, model]
  · rw [h.get_finishReason]
    simp [latest_append, hlast.finishReason]
  · rw [h.isComplete_eq]
    simp [hlast.complete]

/-- A stream is read as the candidate that it delivers. -/
theorem readAs_of_inStream {deliveries : List (String × Value)} {usage : Option TokenUsage}
    (h : candidate.InStream (deliveries.map Prod.snd))
    (husage : TokenUsage.report candidate.counts.prompt candidate.counts.completion
      candidate.counts.total = .ok usage) :
    ∃ a streamed calls,
      feedEach .empty (deliveries.map fun delivery => (Vendor.google delivery.1, delivery.2)) =
        .ok a ∧
      a.result = .ok streamed ∧ candidate.ReadAs calls usage streamed ∧
      streamed.isComplete = .ok true := by
  generalize hevents : deliveries.map Prod.snd = events at h
  rcases h with
    @⟨early, event, increments, final, shows, ends, parts, counts, model, reported, named⟩
  rcases List.map_eq_append_iff.1 hevents with ⟨before, after, rfl, rfl, hafter⟩
  rcases List.map_eq_singleton_iff.1 hafter with ⟨delivery, rfl, rfl⟩
  -- the last event is looked at by itself, for it alone has the finish reason
  rw [List.forall₂_map_left_iff] at shows
  rw [← counts] at reported husage
  rw [← model] at named
  rcases reads_of_early shows with ⟨deltas, hreads, hearly⟩
  rcases reads_of_shows delivery.1 ends with ⟨last, hread, hlast⟩
  have hall : List.Forall₂ (fun (event : Vendor × Value) delta => Reads event.1 event.2 delta)
      ((before ++ [delivery]).map fun delivery => (Vendor.google delivery.1, delivery.2))
      (deltas ++ [last]) := by
    rw [List.map_append]
    exact List.rel_append hreads (.cons hread .nil)
  have hopen : ∀ delta ∈ (deltas ++ [last]).dropLast, delta.complete = false := by
    simpa using open_of_early hearly
  rcases makesUp_of_reads hall hopen with ⟨a, streamed, hfeed, hresult, hm⟩
  rcases readAs_of_makesUp hearly hlast parts model (Except.ok.inj (hlast.usage.symm.trans husage))
    reported named hm with ⟨hstreamed, hcomplete⟩
  exact ⟨a, streamed, _, hfeed, hresult, hstreamed, hcomplete⟩

/-- However the parts of a candidate are dealt over events, whatever they are read under, feeding
the stream succeeds, and its message agrees with the one that the complete response is read as. -/
theorem agree_of_deliveries {response : Value} {deliveries : List (String × Value)} (tag : String)
    (hresponse : candidate.InResponse response)
    (hstream : candidate.InStream (deliveries.map Prod.snd)) :
    ∃ usage single calls a streamed others,
      TokenUsage.report candidate.counts.prompt candidate.counts.completion
        candidate.counts.total = .ok usage ∧
      (Vendor.google tag).readReply response = .ok single ∧ candidate.ReadAs calls usage single ∧
      feedEach .empty (deliveries.map fun delivery => (Vendor.google delivery.1, delivery.2)) =
        .ok a ∧
      a.result = .ok streamed ∧ candidate.ReadAs others usage streamed ∧
      Agree SameFunction single streamed ∧ streamed.isComplete = .ok true := by
  rcases TokenUsage.exists_report candidate.counted.prompt candidate.counted.completion
    candidate.counted.total with ⟨usage, husage, -⟩
  rcases readReply_of_inResponse tag hresponse husage with ⟨single, calls, hread, hsingle⟩
  rcases readAs_of_inStream hstream husage with
    ⟨a, streamed, others, hfeed, hresult, hstreamed, hcomplete⟩
  exact ⟨usage, single, calls, a, streamed, others, husage, hread, hsingle, hfeed, hresult,
    hstreamed, hsingle.agree hstreamed, hcomplete⟩

theorem counted_seatCounts : TokenUsage.Counted ⟨.int 7, .int 19, .null⟩ :=
  ⟨.inr ⟨7, rfl⟩, .inr ⟨19, rfl⟩, .inl rfl⟩

/-- A text, a thought, and two calls, the second without an id. -/
def seatCandidate : Candidate where
  parts := [.text "Let me see.", .thought, .call ⟨some "t1", "seats", [("row", .int 3)]⟩,
    .call ⟨none, "now", []⟩]
  model := .str "m1"
  finishReason := "STOP"
  counts := ⟨.int 7, .int 19, .null⟩
  counted := counted_seatCounts

def rawText (text : String) : Value :=
  .dict [("text", .str text)]

def rawThought : Value :=
  .dict [("thought", .bool true), ("text", .str "Rows?")]

def rawSeats : Value :=
  .dict [("functionCall", .dict [("id", .str "t1"), ("name", .str "seats"),
    ("args", .dict [("row", .int 3)])])]

def rawNow : Value :=
  .dict [("function_call", .dict [("name", .str "now")])]

def rawCandidate (parts : List Value) (reason : Value) : Value :=
  .dict [("content", .dict [("role", .str "model"), ("parts", .list parts)]),
    ("finishReason", reason)]

/-- A response or an event with some candidates, a model and a usage. -/
def rawReply (candidates : List Value) (model usage : Value) : Value :=
  .dict [("candidates", .list candidates), ("modelVersion", model), ("usageMetadata", usage)]

def seatUsage : Value :=
  .dict [("promptTokenCount", .int 7), ("candidatesTokenCount", .int 19)]

def seatResponse : Value :=
  rawReply [rawCandidate [rawText "Let me see.", rawThought, rawSeats, rawNow] (.str "STOP")]
    (.str "m1") seatUsage

/-- The candidate as a stream, each event with the tag that it is read under. The text is cut in
two, the second event brings no part, and the first reports a count already. -/
def seatDeliveries : List (String × Value) :=
  [("b1", rawReply [rawCandidate [rawText "Let "] .null] (.str "m1")
      (.dict [("promptTokenCount", .int 6)])),
    ("b2", rawReply [] .null .null),
    ("b3", rawReply [rawCandidate [rawText "me see.", rawThought, rawSeats] .null] .null .null),
    ("b4", rawReply [rawCandidate [rawNow] (.str "STOP")] (.str "m1") seatUsage)]

theorem isPart_rawText (text : String) : IsPart (rawText text) (.text text) := by
  have htext : (rawText text).read "text" = .str text := by
    simp [rawText]
  have hpart : IsPart (rawText text) (.text ((rawText text).read "text").textOrEmpty) :=
    .text (by simp [rawText, Value.truthy]) (by simp [rawText, callIn, Value.field_pair])
      (.inr ⟨text, htext⟩)
  rw [htext] at hpart
  exact hpart

/-- A thought is a part that says nothing. -/
theorem isPart_rawThought : IsPart rawThought .thought :=
  .thought (by simp [rawThought, Value.truthy])

theorem isPart_rawSeats : IsPart rawSeats (.call ⟨some "t1", "seats", [("row", .int 3)]⟩) := by
  have hcall : callIn rawSeats = .dict [("id", .str "t1"), ("name", .str "seats"),
      ("args", .dict [("row", .int 3)])] := by
    simp [callIn, rawSeats, Value.field_pair, Value.ifNull]
  have hid : SaysId ((callIn rawSeats).read "id") (some "t1") := by
    simpa [hcall] using SaysId.given (by decide)
  exact .call (by simp [rawSeats, Value.truthy]) (by simp [hcall]) hid (by simp [hcall]) (by simp)
    (by simp [hcall, Value.ifNull]) (by decide)

theorem isPart_rawNow : IsPart rawNow (.call ⟨none, "now", []⟩) := by
  have hcall : callIn rawNow = .dict [("name", .str "now")] := by
    simp [callIn, rawNow, Value.field_pair, Value.ifNull]
  have hid : SaysId ((callIn rawNow).read "id") none := by
    simpa [hcall] using SaysId.missing (by simp [Value.truthy])
  exact .call (by simp [rawNow, Value.truthy]) (by simp [hcall]) hid (by simp [hcall]) (by simp)
    (by simp [hcall, Value.ifNull]) (by decide)

/-- The reply reports the counts of the candidate. -/
theorem reports_seatUsage (candidates : List Value) (model : Value) :
    Reports (rawReply candidates model seatUsage) seatCandidate.counts := by
  constructor <;>
    simp [rawReply, seatUsage, seatCandidate, Value.field_pair, Value.ifNull, Value.isNull]

theorem modelOf_rawReply (candidates : List Value) (model usage : Value) :
    modelOf (rawReply candidates model usage) = model := by
  cases model <;> simp [modelOf, rawReply, Value.field_pair, Value.ifNull, Value.isNull]

theorem parts_rawCandidate (parts : List Value) (reason : Value) :
    (((rawCandidate parts reason).read "content").read "parts").ifNull (.list []) =
      .list parts := by
  simp [rawCandidate, Value.ifNull]

theorem finishReasonOf_null (parts : List Value) :
    finishReasonOf (rawCandidate parts .null) = .null := by
  simp [finishReasonOf, rawCandidate, Value.field_pair]

theorem finishReasonOf_str (parts : List Value) (reason : String) :
    finishReasonOf (rawCandidate parts (.str reason)) = .str reason := by
  simp [finishReasonOf, rawCandidate, Value.field_pair, Value.ifNull]

theorem inResponse_seats : seatCandidate.InResponse seatResponse := by
  have hparts : List.Forall₂ IsPart [rawText "Let me see.", rawThought, rawSeats, rawNow]
      seatCandidate.parts :=
    .cons (isPart_rawText _) (.cons isPart_rawThought
      (.cons isPart_rawSeats (.cons isPart_rawNow .nil)))
  have hcandidates : seatResponse.read "candidates" =
      .list [rawCandidate [rawText "Let me see.", rawThought, rawSeats, rawNow] (.str "STOP")] := by
    simp [seatResponse, rawReply]
  exact .response hcandidates (parts_rawCandidate _ _) hparts (finishReasonOf_str _ _)
    (modelOf_rawReply _ _ _) (reports_seatUsage _ _)

/-- A raw reply shows the parts that are put into it. -/
theorem shows_rawReply {parts : List Value} {reason model usage : Value} {increment : Increment}
    (hparts : List.Forall₂ IsPart parts increment.parts)
    (hreason : finishReasonOf (rawCandidate parts reason) = reason)
    (hmodel : model = increment.model)
    (husage : Reports (rawReply [rawCandidate parts reason] model usage) increment.counts) :
    Shows (rawReply [rawCandidate parts reason] model usage) increment reason := by
  have hcandidates : (rawReply [rawCandidate parts reason] model usage).read "candidates" =
      .list [rawCandidate parts reason] := by
    simp [rawReply]
  have hshows := Shows.candidate hcandidates (parts_rawCandidate parts reason) hparts
    ((modelOf_rawReply _ _ _).trans hmodel) husage
  rwa [hreason] at hshows

theorem reports_null (candidates : List Value) (model : Value) :
    Reports (rawReply candidates model .null) .unreported := by
  constructor <;> simp [rawReply, Value.field_pair, TokenUsage.unreported]

theorem inStream_seats : seatCandidate.InStream (seatDeliveries.map Prod.snd) := by
  have hcounted : (TokenUsage.mk (.int 6) .null .null).Counted :=
    ⟨.inr ⟨6, rfl⟩, .inl rfl, .inl rfl⟩
  have hnone : TokenUsage.unreported.Counted := ⟨.inl rfl, .inl rfl, .inl rfl⟩
  let increments : List Increment :=
    [⟨[.text "Let "], .str "m1", _, hcounted⟩, ⟨[], .null, _, hnone⟩,
      ⟨[.text "me see.", .thought, .call ⟨some "t1", "seats", [("row", .int 3)]⟩], .null, _, hnone⟩]
  let final : Increment := ⟨[.call ⟨none, "now", []⟩], .str "m1", _, seatCandidate.counted⟩
  have hearly : List.Forall₂ (fun event increment => Shows event increment .null)
      (seatDeliveries.dropLast.map Prod.snd) increments := by
    refine .cons ?_ (.cons ?_ (.cons ?_ .nil))
    · refine shows_rawReply (.cons (isPart_rawText _) .nil) (finishReasonOf_null _) rfl ?_
      constructor <;> simp [rawReply, Value.field_pair, Value.ifNull, Value.isNull]
    · exact .bare (by simp [rawReply, Value.truthy]) rfl (reports_null _ _)
    · exact shows_rawReply (.cons (isPart_rawText _) (.cons isPart_rawThought
        (.cons isPart_rawSeats .nil))) (finishReasonOf_null _) rfl (reports_null _ _)
  have hlast : Shows (rawReply [rawCandidate [rawNow] (.str "STOP")] (.str "m1") seatUsage) final
      (.str "STOP") :=
    shows_rawReply (.cons isPart_rawNow .nil) (finishReasonOf_str _ _) rfl (reports_seatUsage _ _)
  have hcut : Cut seatCandidate.parts ((increments ++ [final]).flatMap Increment.parts) :=
    .text ["Let ", "me see."] rfl (.keep _ (.keep _ (.keep _ .nil)))
  exact .events hearly hlast hcut rfl rfl (.inl ⟨rfl, rfl⟩) (.inl rfl)

/-- A text with a thought in it and two calls are the same in a response and in four deliveries. -/
theorem agree_of_deliveries_seats :
    ∃ usage single calls a streamed others,
      (Vendor.google "a1").readReply seatResponse = .ok single ∧
      seatCandidate.ReadAs calls usage single ∧
      feedEach .empty (seatDeliveries.map fun delivery => (Vendor.google delivery.1, delivery.2)) =
        .ok a ∧
      a.result = .ok streamed ∧ seatCandidate.ReadAs others usage streamed ∧
      Agree SameFunction single streamed := by
  rcases agree_of_deliveries "a1" inResponse_seats inStream_seats with
    ⟨usage, single, calls, a, streamed, others, -, hread, hsingle, hfeed, hresult, hstreamed,
      hagree, -⟩
  exact ⟨usage, single, calls, a, streamed, others, hread, hsingle, hfeed, hresult, hstreamed,
    hagree⟩

end Candidate

end Parley.Stream.Google
