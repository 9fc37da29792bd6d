import Parley.Google.Reply
import Parley.Proofs.Reply.Basic

/-!
# What a reply of content generation says

A reply is a list of parts, and says what its parts say together; thoughts are parts that say
nothing. The service need not give a call an id, so what is asked for may lack one, and the reader
makes one up.
-/

namespace Parley.Google

/-! ## The form of a reply -/

def callIn (part : Value) : Value :=
  part.field ["function_call", "functionCall"] .null

/-- The id of a call: a text that is not empty, or nothing. -/
inductive SaysId : Value → Option String → Prop where
  | given {id : String} (identified : id ≠ "") : SaysId (.str id) (some id)
  | missing {id : Value} (empty : id.truthy = false) : SaysId id none

inductive SaysPart (part : Value) : Speech → Prop where
  | thought (thought : (part.read "thought").truthy = true) : SaysPart part ⟨"", []⟩
  | call {id : Option String} {name : String} {fields : Fields}
      (spoken : (part.read "thought").truthy = false) (made : (callIn part).isNull = false)
      (called : SaysId ((callIn part).read "id") id)
      (function : (callIn part).read "name" = .str name) (named : name ≠ "")
      (args : ((callIn part).read "args").ifNull (.dict []) = .dict fields)
      (tree : Json.Tree (.dict fields)) : SaysPart part ⟨"", [⟨id, name, fields⟩]⟩
  | text (spoken : (part.read "thought").truthy = false) (plain : (callIn part).isNull = true)
      (content : (part.read "text").IsOptionalText) :
      SaysPart part ⟨(part.read "text").textOrEmpty, []⟩

/-- The token counts of a reply, which need not be there. -/
structure Counts (usage : Value) : Prop where
  prompt : (usage.field ["prompt_token_count", "promptTokenCount"] .null).IsCount
  candidates : (usage.field ["candidates_token_count", "candidatesTokenCount"] .null).IsCount

/-- What a reply says, by the parts of its first candidate. -/
inductive Says (response : Value) : Speech → Prop where
  | reply {candidate : Value} {others parts : List Value} {pieces : List Speech}
      (candidates : response.read "candidates" = .list (candidate :: others))
      (content : ((candidate.read "content").read "parts").ifNull (.list []) = .list parts)
      (all : List.Forall₂ SaysPart parts pieces)
      (usage : Counts (response.field ["usage_metadata", "usageMetadata"] .null)) :
      Says response (.join pieces)

/-! ## Parts -/

/-- A part of a reply: a text, a thought, or a call. -/
inductive ReplyPart where
  | text (text : String)
  | thought
  | call (asked : AskedCall)

def ReplyPart.speech : ReplyPart → Speech
  | .text content => ⟨content, []⟩
  | .thought => ⟨"", []⟩
  | .call asked => ⟨"", [asked]⟩

/-- A part as the service writes it. The arguments of a call can be any object that has a text. -/
inductive IsPart (raw : Value) : ReplyPart → Prop where
  | thought (thought : (raw.read "thought").truthy = true) : IsPart raw .thought
  | call {asked : AskedCall} (spoken : (raw.read "thought").truthy = false)
      (made : (callIn raw).isNull = false) (called : SaysId ((callIn raw).read "id") asked.id)
      (function : (callIn raw).read "name" = .str asked.name) (named : asked.name ≠ "")
      (args : ((callIn raw).read "args").ifNull (.dict []) = .dict asked.fields)
      (writable : Json.writable (.dict asked.fields) = true) : IsPart raw (.call asked)
  | text (spoken : (raw.read "thought").truthy = false) (plain : (callIn raw).isNull = true)
      (content : (raw.read "text").IsOptionalText) :
      IsPart raw (.text (raw.read "text").textOrEmpty)

/-- A call as it is read from what is asked for: the id that the vendor gave, if it gave one, the
name, and the text of the arguments. -/
structure Makes (asked : AskedCall) (call : TextCall) : Prop where
  id : ∀ id ∈ asked.id, call.id = id
  name : call.name = asked.name
  named : call.name ≠ ""
  arguments : Json.write (.dict asked.fields) = .ok call.arguments

/-- If the arguments survive being written, the call answers what is asked for. -/
theorem Makes.answers {asked : AskedCall} {call : TextCall} (h : Makes asked call)
    (tree : Json.Tree (.dict asked.fields)) : Answers asked call :=
  ⟨h.id, h.name, h.named, spells_of_write tree h.arguments⟩

/-- The arguments of a call that is made are never the empty text. -/
theorem Makes.arguments_ne {asked : AskedCall} {call : TextCall} (h : Makes asked call) :
    call.arguments ≠ "" := by
  intro hempty
  -- the text of an object begins with a brace
  have hlist := congrArg String.toList (Json.write_eq_ok_iff.1 h.arguments).2
  simp [hempty, Json.compact] at hlist

/-! ## Reading them -/

/-- A call that is asked for is read as what it is, under an id made up for it if there is none. -/
theorem callOf_of_asked (tag : String) (made : Nat) {call : Value} {asked : AskedCall}
    (called : SaysId (call.read "id") asked.id) (function : call.read "name" = .str asked.name)
    (named : asked.name ≠ "") (args : (call.read "args").ifNull (.dict []) = .dict asked.fields)
    (writable : Json.writable (.dict asked.fields) = true) :
    ∃ (read : TextCall) (after : Nat), callOf tag made call = .ok (read.toCall, after) ∧
      Makes asked read := by
  have hwrite := Json.write_of_writable writable
  have hname : (Value.str asked.name).truthy = true := Value.truthy_str.2 named
  have hfields : (Value.dict asked.fields).toFields = .ok asked.fields := rfl
  generalize hgiven : asked.id = wanted at called
  generalize hid : call.read "id" = given at called
  cases called with
  | @given known identified =>
    refine ⟨⟨known, asked.name, _⟩, made, ?_, ?_, rfl, named, hwrite⟩
    · simp only [callOf, function, hname, hid, Value.field_singleton, args, Bool.not_true,
        Bool.false_eq_true, if_false]
      rw [Outcome.bind_of_ok hfields, Outcome.bind_of_ok hwrite]
      simp only [Value.truthy_str.2 identified, if_true]
      rfl
    · intro other hother
      exact Option.some.inj (hgiven.symm.trans hother)
  -- a made-up id serves a request that has none, and the next one differs
  | missing empty =>
    refine ⟨⟨madeUpId tag made, asked.name, _⟩, made + 1, ?_, ?_, rfl, named, hwrite⟩
    · simp only [callOf, function, hname, hid, Value.field_singleton, args, Bool.not_true,
        Bool.false_eq_true, if_false]
      rw [Outcome.bind_of_ok hfields, Outcome.bind_of_ok hwrite]
      simp only [empty, Bool.false_eq_true, if_false]
      rfl
    · intro other hother
      cases hgiven.symm.trans hother

/-- Parts are read one after the other; a call takes a number only if it needs one. -/
theorem partsOf_cons (tag : String) (made : Nat) (part : Value) (rest : List Value) :
    partsOf tag made (part :: rest) =
      if (part.read "thought").truthy then partsOf tag made rest
      else if !(callIn part).isNull then do
        let (call, made) ← callOf tag made (callIn part)
        let (texts, calls) ← partsOf tag made rest
        return (texts, call :: calls)
      else do
        let (texts, calls) ← partsOf tag made rest
        return (if (part.read "text").truthy then part.read "text" :: texts else texts, calls) :=
  rfl

/-- Parts are read as what they say together, however many ids were made up before. -/
theorem partsOf_of_isPart (tag : String) {raws : List Value} {parts : List ReplyPart}
    (h : List.Forall₂ IsPart raws parts) (made : Nat) :
    ∃ (texts : List String) (calls : List TextCall),
      partsOf tag made raws = .ok (texts.map .str, calls.map TextCall.toCall) ∧
      String.join texts = (Speech.join (parts.map ReplyPart.speech)).text ∧
      List.Forall₂ Makes (Speech.join (parts.map ReplyPart.speech)).calls calls := by
  -- every call may use up an id, so the count varies along the parts
  induction h generalizing made with
  | nil => exact ⟨[], [], rfl, rfl, .nil⟩
  | @cons raw part raws parts hpart _ ih =>
    cases hpart with
    | thought thought =>
      rcases ih made with ⟨texts, calls, hrest, htext, hcalls⟩
      refine ⟨texts, calls, ?_, by simpa [ReplyPart.speech] using htext,
        by simpa [ReplyPart.speech] using hcalls⟩
      simp only [partsOf_cons, thought, if_true]
      exact hrest
    | @call asked spoken given called function named args writable =>
      rcases callOf_of_asked tag made called function named args writable with
        ⟨read, after, hread, hmakes⟩
      rcases ih after with ⟨texts, calls, hrest, htext, hcalls⟩
      refine ⟨texts, read :: calls, ?_, by simpa [ReplyPart.speech] using htext,
        .cons hmakes hcalls⟩
      simp only [partsOf_cons, spoken, given, Bool.false_eq_true, if_false, Bool.not_false,
        if_true]
      rw [Outcome.bind_of_ok hread]
      dsimp only
      rw [Outcome.bind_of_ok hrest]
      rfl
    | text spoken plain content =>
      rcases ih made with ⟨texts, calls, hrest, htext, hcalls⟩
      by_cases ht : (raw.read "text").truthy = true
      · refine ⟨(raw.read "text").textOrEmpty :: texts, calls, ?_, ?_,
          by simpa [ReplyPart.speech] using hcalls⟩
        · simp only [partsOf_cons, spoken, plain, Bool.false_eq_true, if_false, Bool.not_true]
          rw [Outcome.bind_of_ok hrest]
          simp only [ht, if_true, List.map_cons, ← content.eq_str_of_truthy ht]
          rfl
        · simp [String.join_cons, htext, ReplyPart.speech]
      -- an empty text is left out, which does not change the whole
      · have hempty : (raw.read "text").textOrEmpty = "" := content.empty_of_not_truthy ht
        refine ⟨texts, calls, ?_, by simpa [hempty, ReplyPart.speech] using htext,
          by simpa [ReplyPart.speech] using hcalls⟩
        simp only [partsOf_cons, spoken, plain, Bool.false_eq_true, if_false, Bool.not_true]
        rw [Outcome.bind_of_ok hrest]
        simp only [ht]
        rfl

/-- A part says what it is. -/
theorem isPart_of_says {raw : Value} {piece : Speech} (h : SaysPart raw piece) :
    ∃ part : ReplyPart, IsPart raw part ∧ part.speech = piece ∧
      ∀ asked ∈ piece.calls, Json.Tree (.dict asked.fields) := by
  cases h with
  | thought thought => exact ⟨.thought, .thought thought, rfl, by simp⟩
  | @call id name fields spoken made called function named args tree =>
    exact ⟨.call ⟨id, name, fields⟩, .call spoken made called function named args tree.writable,
      rfl, by simpa using tree⟩
  | text spoken plain content => exact ⟨.text _, .text spoken plain content, rfl, by simp⟩

/-- Parts that say something are texts, thoughts and calls, and what the calls hold can be said. -/
theorem isParts_of_says {raws : List Value} {pieces : List Speech}
    (h : List.Forall₂ SaysPart raws pieces) :
    ∃ parts : List ReplyPart, List.Forall₂ IsPart raws parts ∧ parts.map ReplyPart.speech = pieces ∧
      ∀ asked ∈ (Speech.join pieces).calls, Json.Tree (.dict asked.fields) := by
  induction h with
  | nil => exact ⟨[], .nil, rfl, by simp⟩
  | cons hraw _ ih =>
    rcases isPart_of_says hraw with ⟨part, hpart, rfl, htree⟩
    rcases ih with ⟨parts, hparts, rfl, htrees⟩
    refine ⟨part :: parts, .cons hpart hparts, rfl, ?_⟩
    intro asked hasked
    rcases List.mem_append.1 hasked with hfirst | hrest
    · exact htree asked hfirst
    · exact htrees asked hrest

/-- Calls that are made answer those that are asked for. -/
theorem answers_of_makes {asked : List AskedCall} {calls : List TextCall}
    (h : List.Forall₂ Makes asked calls) (htree : ∀ c ∈ asked, Json.Tree (.dict c.fields)) :
    List.Forall₂ Answers asked calls := by
  induction h with
  | nil => exact .nil
  | cons hcall _ ih =>
    exact .cons (hcall.answers (htree _ (by simp))) (ih fun c hc => htree c (by simp [hc]))

/-- The usage is the report of its counts; where there is no usage, no count can be read. -/
theorem usageOf_eq (raw : Value) :
    let usage := raw.field ["usage_metadata", "usageMetadata"] .null
    usageOf raw = TokenUsage.report (usage.field ["prompt_token_count", "promptTokenCount"] .null)
      (usage.field ["candidates_token_count", "candidatesTokenCount"] .null)
      (usage.field ["total_token_count", "totalTokenCount"] .null) := by
  dsimp only [usageOf]
  cases h : raw.field ["usage_metadata", "usageMetadata"] .null <;> rfl

theorem usageOf_of_counts {response : Value}
    (h : Counts (response.field ["usage_metadata", "usageMetadata"] .null)) :
    ∃ reported, usageOf response = .ok reported := by
  rw [usageOf_eq]
  exact TokenUsage.report_of_counts h.prompt h.candidates

/-- The text and the calls of a candidate are those of its parts. -/
theorem candidateOf_of_parts (tag : String) {candidate : Value} {raws : List Value}
    {parts : List ReplyPart}
    (hcontent : ((candidate.read "content").read "parts").ifNull (.list []) = .list raws)
    (hparts : List.Forall₂ IsPart raws parts) :
    ∃ calls : List TextCall,
      candidateOf tag candidate =
        .ok ((Speech.join (parts.map ReplyPart.speech)).text, calls.map TextCall.toCall) ∧
      List.Forall₂ Makes (Speech.join (parts.map ReplyPart.speech)).calls calls := by
  rcases partsOf_of_isPart tag hparts 0 with ⟨texts, calls, hread, htext, hmakes⟩
  have hitems : (Value.list raws).items = .ok raws := rfl
  have hjoin : Value.joinTexts (texts.map .str) =
      .ok (Speech.join (parts.map ReplyPart.speech)).text := by
    rw [Value.joinTexts_map_str, htext]
  refine ⟨calls, ?_, hmakes⟩
  rw [candidateOf, Value.field_singleton, hcontent, Outcome.bind_of_ok hitems,
    Outcome.bind_of_ok hread]
  dsimp only
  rw [Outcome.bind_of_ok hjoin]
  rfl

/-- The reply in a candidate is read by its parts and its token counts. -/
theorem replyOf_of_candidate (tag : String) {response candidate : Value} {others raws : List Value}
    {parts : List ReplyPart} {usage : Option TokenUsage}
    (hcandidates : response.read "candidates" = .list (candidate :: others))
    (hcontent : ((candidate.read "content").read "parts").ifNull (.list []) = .list raws)
    (hparts : List.Forall₂ IsPart raws parts) (husage : usageOf response = .ok usage) :
    ∃ calls : List TextCall,
      replyOf tag response = .ok (Reply.message (Speech.join (parts.map ReplyPart.speech)).text
        (calls.map TextCall.toCall) usage (modelOf response) (finishReasonOf candidate)) ∧
      List.Forall₂ Makes (Speech.join (parts.map ReplyPart.speech)).calls calls := by
  rcases candidateOf_of_parts tag hcontent hparts with ⟨calls, hcandidate, hmakes⟩
  have hitem : (Value.list (candidate :: others)).item 0 = .ok candidate := rfl
  refine ⟨calls, ?_, hmakes⟩
  -- only the first candidate is read
  simp only [replyOf, hcandidates, Value.truthy, List.isEmpty_cons, Bool.not_false, Bool.not_true,
    Bool.false_eq_true, if_false]
  rw [Outcome.bind_of_ok hitem, Outcome.bind_of_ok hcandidate]
  dsimp only
  rw [Outcome.bind_of_ok husage]
  rfl

/-- A reply is read as what it says. -/
theorem replyOf_of_says (tag : String) {response : Value} {speech : Speech}
    (h : Says response speech) :
    ∃ calls usage model finishReason, List.Forall₂ Answers speech.calls calls ∧
      replyOf tag response =
        .ok (Reply.message speech.text (calls.map TextCall.toCall) usage model finishReason) := by
  rcases h with @⟨candidate, others, raws, pieces, hcandidates, hcontent, hall, hcounts⟩
  rcases isParts_of_says hall with ⟨parts, hparts, rfl, htrees⟩
  rcases usageOf_of_counts hcounts with ⟨usage, husage⟩
  rcases replyOf_of_candidate tag hcandidates hcontent hparts husage with ⟨calls, hread, hmakes⟩
  exact ⟨calls, usage, _, _, answers_of_makes hmakes htrees, hread⟩

end Parley.Google
