import Parley.OpenAI.Reply
import Parley.Proofs.Reply.Basic

/-!
# What a chat completion says

The text of a completion is its content, or the texts among the parts of its content; the arguments
of its calls arrive as texts and stay what they are.
-/

namespace Parley.OpenAI

/-! ## The form of a reply -/

/-- The text of a part of a content. Parts that are no texts say nothing. -/
inductive SaysPart (part : Value) : String → Prop where
  | text {text : String} (type : part.read "type" = .null ∨ part.read "type" = .str "text")
      (content : (part.read "text").ifNull (.str "") = .str text) : SaysPart part text
  | other {type : String} (other : part.read "type" = .str type) (ne : type ≠ "text") :
      SaysPart part ""

inductive SaysText : Value → String → Prop where
  | nothing : SaysText .null ""
  | text (text : String) : SaysText (.str text) text
  | parts {parts : List Value} {texts : List String} (all : List.Forall₂ SaysPart parts texts) :
      SaysText (.list parts) (String.join texts)

/-- A call of a reply asks for a call: it has an id, a function's name, and a text that spells the
arguments. -/
structure Asks (raw : Value) (asked : AskedCall) : Prop where
  id : ∃ id : String, asked.id = some id ∧ raw.read "id" = .str id
  name : (raw.read "function").read "name" = .str asked.name
  named : asked.name ≠ ""
  arguments : ∃ text : String, (raw.read "function").read "arguments" = .str text ∧
    Spells text asked.fields

/-- A call of a reply as the service writes it. An id or an argument text that is empty may be left
out. -/
structure IsCall (raw : Value) (call : TextCall) : Prop where
  id : (raw.read "id").ifNull (.str "") = .str call.id
  name : (raw.read "function").read "name" = .str call.name
  named : call.name ≠ ""
  arguments : ((raw.read "function").read "arguments").ifNull (.str "") = .str call.arguments

/-- The token counts of a reply, which need not be there. -/
structure Counts (usage : Value) : Prop where
  prompt : (usage.read "prompt_tokens").IsCount
  completion : (usage.read "completion_tokens").IsCount

/-- What a reply says, by its first choice. -/
inductive Says (response : Value) (speech : Speech) : Prop where
  | reply {choice : Value} {others calls : List Value}
      (choices : response.read "choices" = .list (choice :: others))
      (message : (choice.read "message").isNull = false)
      (text : SaysText ((choice.read "message").read "content") speech.text)
      (made : ((choice.read "message").read "tool_calls").ifNull (.list []) = .list calls)
      (asks : List.Forall₂ Asks calls speech.calls)
      (usage : Counts (response.read "usage"))

/-! ## Reading it -/

/-- The texts that are kept of parts make up what the parts say. -/
theorem kept_of_parts {parts : List Value} {texts : List String}
    (h : List.Forall₂ SaysPart parts texts) :
    ∃ kept : List String, (parts.filter fun part =>
        (part.read "type").isNull || (part.read "type").isText "text").map
          (fun part => part.field ["text"] (.str "")) = kept.map .str ∧
      String.join kept = String.join texts := by
  induction h with
  | nil => exact ⟨[], rfl, rfl⟩
  | @cons part text parts texts hpart _ ih =>
    obtain ⟨kept, hkept, hjoin⟩ := ih
    cases hpart with
    | text type content =>
      -- a part without a type counts as text
      have hkeep : ((part.read "type").isNull || (part.read "type").isText "text") = true := by
        rcases type with h | h <;> simp [h]
      refine ⟨text :: kept, ?_, by simp [String.join_cons, hjoin]⟩
      simp only [List.filter_cons, hkeep, if_true, List.map_cons, hkept]
      rw [Value.field_singleton, content]
    | other other ne =>
      have hdrop : ((part.read "type").isNull || (part.read "type").isText "text") = false := by
        simp [other, Value.isText, ne]
      refine ⟨kept, ?_, by simp [String.join_cons, hjoin]⟩
      simp only [List.filter_cons, hdrop, Bool.false_eq_true, if_false, hkept]

/-- The text of a content is read as it is. -/
theorem textOf_of_saysText {content : Value} {text : String} (h : SaysText content text) :
    textOf content = .ok text := by
  cases h with
  | nothing => rfl
  | text => rfl
  | parts all =>
    obtain ⟨kept, hkept, hjoin⟩ := kept_of_parts all
    simp only [textOf, hkept, Value.joinTexts_map_str, hjoin]

/-- A call is read as what it is. -/
theorem callOf_of_isCall (vendor : Vendor) {raw : Value} {call : TextCall} (h : IsCall raw call) :
    callOf vendor raw = .ok call.toCall := by
  have hname : (Value.str call.name).truthy = true := Value.truthy_str.2 h.named
  simp only [callOf, h.name, hname, if_true, Value.field_singleton, h.id, h.arguments]
  rfl

theorem mapM_callOf (vendor : Vendor) {raws : List Value} {calls : List TextCall}
    (h : List.Forall₂ IsCall raws calls) :
    raws.mapM (callOf vendor) = .ok (calls.map TextCall.toCall) := by
  rw [Outcome.mapM_eq_ok_iff, List.forall₂_map_right_iff]
  exact h.imp fun _ _ hcall => callOf_of_isCall vendor hcall

/-- A call that is asked for is one that answers to it. -/
theorem isCall_of_asks {raw : Value} {asked : AskedCall} (h : Asks raw asked) :
    ∃ call, IsCall raw call ∧ Answers asked call := by
  rcases h.id with ⟨id, hasked, hid⟩
  rcases h.arguments with ⟨text, htext, hspells⟩
  refine ⟨⟨id, asked.name, text⟩, ⟨by simp [hid, Value.ifNull], h.name, h.named,
    by simp [htext, Value.ifNull]⟩, ?_, rfl, h.named, hspells⟩
  intro other hother
  rw [hasked] at hother
  exact Option.some.inj hother

/-- Calls that are asked for are made, and answered. -/
theorem isCalls_of_asks {raws : List Value} {asked : List AskedCall}
    (h : List.Forall₂ Asks raws asked) :
    ∃ calls, List.Forall₂ IsCall raws calls ∧ List.Forall₂ Answers asked calls := by
  have hcalls := h.imp fun _ _ hasks => isCall_of_asks hasks
  rcases exists_list_between hcalls with ⟨calls, hcalls, hanswers⟩
  exact ⟨calls, hcalls, hanswers.flip⟩

/-- The usage is the report of its counts; where there is no usage, no count can be read. -/
theorem usageOf_eq (raw : Value) :
    usageOf raw = TokenUsage.report ((raw.read "usage").read "prompt_tokens")
      ((raw.read "usage").read "completion_tokens") ((raw.read "usage").read "total_tokens") := by
  unfold usageOf
  cases h : raw.read "usage" <;> rfl

theorem usageOf_of_counts {response : Value} (h : Counts (response.read "usage")) :
    ∃ usage, usageOf response = .ok usage := by
  rw [usageOf_eq]
  exact TokenUsage.report_of_counts h.prompt h.completion

/-- The reply in a choice is read by its text, its calls and its token counts. -/
theorem replyOf_of_choice (vendor : Vendor) {response choice : Value} {others raws : List Value}
    {text : String} {calls : List TextCall} {usage : Option TokenUsage}
    (hchoices : response.read "choices" = .list (choice :: others))
    (hmessage : (choice.read "message").isNull = false)
    (htext : SaysText ((choice.read "message").read "content") text)
    (hmade : ((choice.read "message").read "tool_calls").ifNull (.list []) = .list raws)
    (hcalls : List.Forall₂ IsCall raws calls) (husage : usageOf response = .ok usage) :
    replyOf vendor response = .ok (Reply.message text (calls.map TextCall.toCall) usage
      (response.read "model") (choice.read "finish_reason")) := by
  have hitems : (Value.list (choice :: others)).item 0 = .ok choice := rfl
  have hraws : (Value.list raws).items = .ok raws := rfl
  simp only [replyOf, hchoices, Value.truthy, List.isEmpty_cons, Bool.not_false, Bool.not_true,
    Bool.false_eq_true, if_false, Value.field_singleton]
  rw [Outcome.bind_of_ok hitems]
  simp only [hmessage, Bool.false_eq_true, if_false, hmade]
  -- the calls are read before the text, and the counts last
  rw [Outcome.bind_of_ok hraws, Outcome.bind_of_ok (mapM_callOf vendor hcalls),
    Outcome.bind_of_ok (textOf_of_saysText htext), Outcome.bind_of_ok husage]
  rfl

/-- A reply is read as what it says. -/
theorem replyOf_of_says (vendor : Vendor) {response : Value} {speech : Speech}
    (h : Says response speech) :
    ∃ calls usage model finishReason, List.Forall₂ Answers speech.calls calls ∧
      replyOf vendor response =
        .ok (Reply.message speech.text (calls.map TextCall.toCall) usage model finishReason) := by
  rcases h with @⟨choice, others, raws, hchoices, hmessage, htext, hmade, hasks, hcounts⟩
  rcases isCalls_of_asks hasks with ⟨calls, hcalls, hanswers⟩
  rcases usageOf_of_counts hcounts with ⟨usage, husage⟩
  exact ⟨calls, usage, _, _, hanswers,
    replyOf_of_choice vendor hchoices hmessage htext hmade hcalls husage⟩

/-- The chunk of a choice is made of the parts of the choice. There is none if nothing is in it. -/
theorem chunkOf_of_choice {event choice : Value} {others raws : List Value} {text : String}
    {usage : Option TokenUsage} (hchoices : event.read "choices" = .list (choice :: others))
    (htext : SaysText ((choice.read "delta").read "content") text)
    (hmade : ((choice.read "delta").read "tool_calls").ifNull (.list []) = .list raws)
    (husage : usageOf event = .ok usage) :
    chunkOf event = .ok
      (if text = "" && raws.isEmpty && (choice.read "finish_reason").isNull && usage.isNone
        then none
      else some (Reply.chunk (.str text) (raws.map fragmentOf)
        (if raws.isEmpty then none else some (indicesFrom 0 raws)) usage
        (!(choice.read "finish_reason").isNull)
        [("finish_reason", choice.read "finish_reason")])) := by
  have hitem : (Value.list (choice :: others)).item 0 = .ok choice := rfl
  have hitems : (Value.list raws).items = .ok raws := rfl
  rw [chunkOf, Outcome.bind_of_ok husage]
  simp only [hchoices, Value.truthy, List.isEmpty_cons, Bool.not_false, Bool.not_true,
    Bool.false_eq_true, if_false, Value.field_singleton]
  rw [Outcome.bind_of_ok hitem]
  simp only [hmade]
  rw [Outcome.bind_of_ok hitems, Outcome.bind_of_ok (textOf_of_saysText htext), Bool.not_not]
  split <;> rfl

/-- Without a choice there is a chunk of a report, which names the model, if there is a report. -/
theorem chunkOf_of_alone {event : Value} {usage : Option TokenUsage}
    (halone : (event.read "choices").truthy = false) (husage : usageOf event = .ok usage) :
    chunkOf event = .ok (usage.map fun u =>
      Reply.chunk .null [] none (some u) false [("model", event.read "model")]) := by
  rw [chunkOf, Outcome.bind_of_ok husage]
  simp only [halone, Bool.not_false, if_true]
  cases usage <;> rfl

end Parley.OpenAI
