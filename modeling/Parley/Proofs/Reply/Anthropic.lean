import Parley.Anthropic.Reply
import Parley.Proofs.Reply.Basic

/-!
# What a reply of the messages service says

A reply is a list of content blocks, and says what its blocks say together. The arguments of a call
arrive as an object and are written as its text, so the object has to be one that its text says
without loss.
-/

namespace Parley.Anthropic

/-! ## The form of a reply -/

/-- What a content block says. Blocks that are neither texts nor calls say nothing. -/
inductive SaysBlock (block : Value) : Speech → Prop where
  | text {text : String} (type : block.read "type" = .str "text")
      (content : (block.read "text").ifNull (.str "") = .str text) : SaysBlock block ⟨text, []⟩
  | call {id name : String} {fields : Fields} (type : block.read "type" = .str "tool_use")
      (called : block.read "id" = .str id) (identified : id ≠ "")
      (function : block.read "name" = .str name) (named : name ≠ "")
      (input : (block.read "input").ifNull (.dict []) = .dict fields)
      (tree : Json.Tree (.dict fields)) :
      SaysBlock block ⟨"", [⟨some id, name, fields⟩]⟩
  | other {type : String} (other : block.read "type" = .str type) (noText : type ≠ "text")
      (noCall : type ≠ "tool_use") : SaysBlock block ⟨"", []⟩

/-- The token counts of a reply, which need not be there. -/
structure Counts (usage : Value) : Prop where
  input : (usage.read "input_tokens").IsCount
  output : (usage.read "output_tokens").IsCount

inductive Says (response : Value) : Speech → Prop where
  | reply {blocks : List Value} {pieces : List Speech}
      (content : response.read "content" = .list blocks)
      (all : List.Forall₂ SaysBlock blocks pieces) (usage : Counts (response.read "usage")) :
      Says response (.join pieces)

/-! ## Reading it -/

/-- Blocks are read as what they say together. -/
theorem blocksOf_of_says {blocks : List Value} {pieces : List Speech}
    (h : List.Forall₂ SaysBlock blocks pieces) :
    ∃ (texts : List String) (calls : List TextCall),
      blocksOf blocks = .ok (texts.map .str, calls.map TextCall.toCall) ∧
      String.join texts = (Speech.join pieces).text ∧
      List.Forall₂ Answers (Speech.join pieces).calls calls := by
  induction h with
  | nil => exact ⟨[], [], rfl, rfl, .nil⟩
  | @cons block piece blocks pieces hblock _ ih =>
    obtain ⟨texts, calls, hrest, htext, hcalls⟩ := ih
    -- a block gives a text, a call or nothing, and what the blocks behind it give is known
    cases hblock with
    | @text text type content =>
      refine ⟨text :: texts, calls, ?_, ?_, ?_⟩
      · have htype : (block.read "type").isText "text" = true := by simp [type]
        simp only [blocksOf, htype, if_true]
        rw [Outcome.bind_of_ok hrest, Value.field_singleton, content]
        rfl
      · simp [String.join_cons, htext]
      · simpa using hcalls
    | @call id name fields type called identified function named input tree =>
      -- the input is an object, so it is the written text that has to spell it
      obtain ⟨written, hwrite, hspells⟩ := exists_text_of_tree tree
      refine ⟨texts, ⟨id, name, written⟩ :: calls, ?_, ?_, ?_⟩
      · have hid : (Value.str id).truthy = true := Value.truthy_str.2 identified
        have hname : (Value.str name).truthy = true := Value.truthy_str.2 named
        have htext : (block.read "type").isText "text" = false := by simp [type, Value.isText]
        have hcall : (block.read "type").isText "tool_use" = true := by simp [type]
        simp only [blocksOf, htext, hcall, called, function, hid, hname, Value.field_singleton,
          input, Bool.and_self, Bool.false_eq_true, if_true, if_false]
        rw [Outcome.bind_of_ok hwrite, Outcome.bind_of_ok hrest]
        rfl
      · simpa using htext
      · refine .cons ⟨?_, rfl, named, hspells⟩ hcalls
        rintro other ⟨⟩
        rfl
    | @other type other noText noCall =>
      refine ⟨texts, calls, ?_, ?_, ?_⟩
      · have htext : (block.read "type").isText "text" = false := by
          simp [other, Value.isText, noText]
        have hcall : (block.read "type").isText "tool_use" = false := by
          simp [other, Value.isText, noCall]
        simp only [blocksOf, htext, hcall]
        exact hrest
      · simpa using htext
      · simpa using hcalls

/-- The usage is the report of its counts; where there is no usage, no count can be read. -/
theorem usageOf_eq (usage : Value) :
    usageOf usage = TokenUsage.report (usage.read "input_tokens") (usage.read "output_tokens")
      .null := by
  unfold usageOf
  cases usage <;> rfl

theorem usageOf_of_counts {usage : Value} (h : Counts usage) :
    ∃ reported, usageOf usage = .ok reported := by
  rw [usageOf_eq]
  exact TokenUsage.report_of_counts h.input h.output

/-- A reply is read as what it says. -/
theorem replyOf_of_says {response : Value} {speech : Speech} (h : Says response speech) :
    ∃ calls usage, List.Forall₂ Answers speech.calls calls ∧
      usageOf (response.read "usage") = .ok usage ∧
      replyOf response = .ok (Reply.message speech.text (calls.map TextCall.toCall) usage
        (response.read "model") (response.read "stop_reason")) := by
  rcases h with @⟨blocks, pieces, hcontent, hall, hcounts⟩
  obtain ⟨texts, calls, hblocks, htext, hanswers⟩ := blocksOf_of_says hall
  obtain ⟨usage, husage⟩ := usageOf_of_counts hcounts
  refine ⟨calls, usage, hanswers, husage, ?_⟩
  have hitems : (Value.list blocks).items = .ok blocks := rfl
  have hjoin : Value.joinTexts (texts.map .str) = .ok (Speech.join pieces).text := by
    rw [Value.joinTexts_map_str, htext]
  simp only [replyOf, hcontent, Value.isNull_list, Bool.false_eq_true, if_false]
  rw [Outcome.bind_of_ok hitems, Outcome.bind_of_ok hblocks, Outcome.bind_of_ok hjoin,
    Outcome.bind_of_ok husage]
  rfl

end Parley.Anthropic
