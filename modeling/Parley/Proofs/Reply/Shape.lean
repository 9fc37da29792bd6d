import Parley.Proofs.Json.RoundTrip
import Parley.Proofs.Reply.Basic
import Parley.Proofs.Reply.Faults

/-!
# The shape of a reply

Whatever a vendor sends as its response, a message that is read of it has a fixed shape: there is
nothing in it that only some responses lead to.

* `Message.Spoken`: what replies and chunks have in common;
* `Vendor.spokenText`: the text of a response, put together from its parts;
* `Anthropic.Gives`, `Google.Gives`: what blocks and parts give, one after another;
* `Vendor.ReplyShape`: the shape of a reply to a response;
* `Vendor.replyShape_of_readReply`: every reply that is read has it.
-/

namespace Parley

/-! ## Usage -/

def TokenUsage.Known (usage : TokenUsage) : Prop :=
  usage.prompt.isNull = false ∨ usage.completion.isNull = false ∨ usage.total.isNull = false

/-- Usage that a report comes to has all counts that can be known. -/
theorem TokenUsage.known_of_report {prompt completion total : Value} {usage : Option TokenUsage}
    (h : report prompt completion total = .ok usage) : ∀ u ∈ usage, u.Known := by
  rintro u rfl
  unfold report at h
  split at h
  · cases h
  · rename_i hsome
    obtain ⟨counts, hcounts, h⟩ := Outcome.of_bind_eq_ok h
    cases h
    unfold ofCounts at hcounts
    split at hcounts
    · rename_i hderived
      obtain ⟨sum, -, hcounts⟩ := Outcome.of_bind_eq_ok hcounts
      cases hcounts
      simp only [Bool.and_eq_true, Bool.not_eq_true'] at hderived
      exact .inl hderived.1.2
    · cases hcounts
      simp only [Bool.and_eq_true, not_and_or, Bool.not_eq_true] at hsome
      unfold Known
      tauto

/-- An assistant message that answers no call, without usage unless some count is known. -/
structure Message.Spoken (m : Message) : Prop where
  role : m.role = .str "assistant"
  toolCallId : m.toolCallId = .null
  name : m.name = .null
  usage : m.usage = .null ∨ ∃ usage : TokenUsage, m.usage = usage.toValue ∧ usage.Known

/-- What is stored of it is null or usage. -/
theorem eq_null_or_of_usageValue {usage : Option TokenUsage} (h : ∀ u ∈ usage, u.Known) :
    usageValue usage = .null ∨ ∃ u : TokenUsage, usageValue usage = u.toValue ∧ u.Known := by
  cases usage with
  | none => exact .inl rfl
  | some u => exact .inr ⟨u, rfl, h u rfl⟩

/-! ## Calls -/

/-- A call with an id and a name, whose arguments are a text that is read as a value of a kind. -/
structure ToolCall.Filled (call : ToolCall) (kind : Value → Prop) : Prop where
  id : call.id.truthy = true
  name : call.name.truthy = true
  arguments : ∃ text v, call.arguments = .str text ∧ Json.read text = .ok v ∧ kind v

/-- The shape of a call. A chat completion need only name the function, the rest is what it sent. -/
def Vendor.CallShape (vendor : Vendor) (call : ToolCall) : Prop :=
  match vendor with
  | .openAI _ => call.name.truthy = true
  | .anthropic => call.Filled fun _ => True
  | .google _ => call.Filled fun v => ∃ fields, v = .dict fields

/-! ## Replies -/

def Anthropic.textsOf (blocks : List Value) : List Value :=
  (blocks.filter fun block => (block.read "type").isText "text").map fun block =>
    block.field ["text"] (.str "")

/-- The texts in the parts of a candidate that are neither thoughts nor calls. -/
def Google.textsOf (parts : List Value) : List Value :=
  (parts.filter fun part =>
    !(part.read "thought").truthy && (part.field ["function_call", "functionCall"] .null).isNull &&
      (part.read "text").truthy).map fun part => part.read "text"

def Google.spokenText (candidate : Value) : Outcome String := do
  let parts ← ((candidate.read "content").field ["parts"] (.list [])).items
  Value.joinTexts (textsOf parts)

namespace Vendor

def spokenText (vendor : Vendor) (response : Value) : Outcome String :=
  match vendor with
  | .openAI _ => do
    let choice ← (response.read "choices").item 0
    OpenAI.textOf ((choice.read "message").read "content")
  | .anthropic => do Value.joinTexts (Anthropic.textsOf (← (response.read "content").items))
  | .google _ => do Google.spokenText (← (response.read "candidates").item 0)

def modelOf (vendor : Vendor) (response : Value) : Value :=
  match vendor with
  | .google _ => Google.modelOf response
  | _ => response.read "model"

/-- The shape of a reply to a response. -/
structure ReplyShape (vendor : Vendor) (response : Value) (m : Message) : Prop extends
    m.Spoken where
  /-- The content is the text, or null if there are calls and no text. -/
  content : ∃ text, vendor.spokenText response = .ok text ∧
    m.content = if text = "" && !m.toolCalls.isEmpty then .null else .str text
  toolCalls : ∃ calls : List ToolCall, m.toolCalls = calls.map ToolCall.toValue ∧
    ∀ call ∈ calls, vendor.CallShape call
  /-- The metadata has exactly two entries. -/
  metadata : ∃ reason, m.metadata =
    .dict [("model", vendor.modelOf response), ("finish_reason", reason)]

variable {vendor : Vendor} {response : Value} {m : Message}

/-- A reply that is made of a text and of calls in shape is in shape. -/
theorem replyShape_message {text : String} {calls : List ToolCall} {usage : Option TokenUsage}
    (htext : vendor.spokenText response = .ok text) (hcalls : ∀ call ∈ calls, vendor.CallShape call)
    (husage : ∀ u ∈ usage, u.Known) (reason : Value) :
    vendor.ReplyShape response
      (Reply.message text calls usage (vendor.modelOf response) reason) where
  role := rfl
  toolCallId := rfl
  name := rfl
  usage := eq_null_or_of_usageValue husage
  content := by
    refine ⟨text, htext, ?_⟩
    by_cases hempty : text = "" <;>
      simp [Reply.message, Reply.content, Value.truthy, Value.orElse, hempty]
  toolCalls := ⟨calls, rfl, hcalls⟩
  metadata := ⟨reason, rfl⟩

end Vendor

/-! ### Chat completions -/

namespace OpenAI

variable {vendor : Vendor} {response : Value} {m : Message}

/-- Usage that is read has all counts that can be known. -/
theorem known_of_usageOf {raw : Value} {usage : Option TokenUsage}
    (h : usageOf raw = .ok usage) : ∀ u ∈ usage, u.Known := by
  rw [usageOf_eq] at h
  exact TokenUsage.known_of_report h

/-- A call that is read names its function, and is otherwise what was sent. -/
theorem callOf_eq_ok_iff {raw : Value} {call : ToolCall} :
    callOf vendor raw = .ok call ↔ ((raw.read "function").read "name").truthy = true ∧
      call = ⟨raw.field ["id"] (.str ""), (raw.read "function").read "name",
        (raw.read "function").field ["arguments"] (.str "")⟩ := by
  simp only [callOf]
  cases hname : ((raw.read "function").read "name").truthy with
  | true => simp [eq_comm]
  | false => simp

/-- A reply that is read is made of the calls, the text and the usage of the first choice. -/
theorem exists_of_replyOf (h : replyOf vendor response = .ok m) : ∃ choice raws calls text usage,
    (response.read "choices").item 0 = .ok choice ∧
      ((choice.read "message").field ["tool_calls"] (.list [])).items = .ok raws ∧
      raws.mapM (callOf vendor) = .ok calls ∧
      textOf ((choice.read "message").read "content") = .ok text ∧
      usageOf response = .ok usage ∧
      m = Reply.message text calls usage (response.read "model") (choice.read "finish_reason") := by
  simp only [replyOf] at h
  split at h
  · cases h
  obtain ⟨choice, hchoice, h⟩ := Outcome.of_bind_eq_ok h
  split at h
  · cases h
  obtain ⟨raws, hraws, h⟩ := Outcome.of_bind_eq_ok h
  obtain ⟨calls, hcalls, h⟩ := Outcome.of_bind_eq_ok h
  obtain ⟨text, htext, h⟩ := Outcome.of_bind_eq_ok h
  obtain ⟨usage, husage, h⟩ := Outcome.of_bind_eq_ok h
  cases h
  exact ⟨choice, raws, calls, text, usage, hchoice, hraws, hcalls, htext, husage, rfl⟩

/-- Every reply that the first vendor's reader makes is in shape. -/
theorem replyShape_of_replyOf {label : Value} (h : replyOf vendor response = .ok m) :
    (Vendor.openAI label).ReplyShape response m := by
  obtain ⟨choice, raws, calls, text, usage, hchoice, -, hcalls, htext, husage, rfl⟩ :=
    exists_of_replyOf h
  apply Vendor.replyShape_message
  · exact (Outcome.bind_of_ok hchoice).trans htext
  · intro call hcall
    have hmade := Outcome.mapM_eq_ok_iff.1 hcalls
    rcases exists_of_mem_left hmade.flip hcall with ⟨raw, -, hraw⟩
    rcases callOf_eq_ok_iff.1 hraw with ⟨hname, rfl⟩
    exact hname
  · exact known_of_usageOf husage

end OpenAI

/-! ### The messages service -/

namespace Anthropic

variable {response : Value} {m : Message}

theorem known_of_usageOf {raw : Value} {usage : Option TokenUsage}
    (h : usageOf raw = .ok usage) : ∀ u ∈ usage, u.Known := by
  rw [usageOf_eq] at h
  exact TokenUsage.known_of_report h

/-- What blocks give, one after another: the texts of the text blocks and the calls of the tool
blocks, whose arguments are written anew. -/
inductive Gives : List Value → List Value → List ToolCall → Prop where
  | nil : Gives [] [] []
  | text {block : Value} {rest texts : List Value} {calls : List ToolCall}
      (type : block.read "type" = .str "text") (later : Gives rest texts calls) :
      Gives (block :: rest) (block.field ["text"] (.str "") :: texts) calls
  | call {block : Value} {rest texts : List Value} {calls : List ToolCall} {arguments : String}
      (type : block.read "type" = .str "tool_use") (identified : (block.read "id").truthy = true)
      (named : (block.read "name").truthy = true)
      (written : Json.write (block.field ["input"] (.dict [])) = .ok arguments)
      (later : Gives rest texts calls) :
      Gives (block :: rest) texts (⟨block.read "id", block.read "name", .str arguments⟩ :: calls)
  | other {block : Value} {rest texts : List Value} {calls : List ToolCall}
      (silent : (block.read "type").isText "text" = false)
      (callless : (block.read "type").isText "tool_use" = false) (later : Gives rest texts calls) :
      Gives (block :: rest) texts calls

/-- What is read of blocks is given by them, block by block. -/
theorem gives_of_blocksOf {blocks texts : List Value} {calls : List ToolCall}
    (h : blocksOf blocks = .ok (texts, calls)) : Gives blocks texts calls := by
  induction blocks generalizing texts calls with
  | nil =>
    cases h
    exact .nil
  | cons block rest ih =>
    simp only [blocksOf] at h
    split at h
    · rename_i htype
      obtain ⟨⟨later, others⟩, hlater, h⟩ := Outcome.of_bind_eq_ok h
      cases h
      exact .text (Value.eq_str_of_isText htype) (ih hlater)
    · rename_i hsilent
      split at h
      · rename_i htype
        split at h
        · rename_i hparts
          obtain ⟨arguments, hwrite, h⟩ := Outcome.of_bind_eq_ok h
          obtain ⟨⟨later, others⟩, hlater, h⟩ := Outcome.of_bind_eq_ok h
          cases h
          simp only [Bool.and_eq_true] at hparts
          exact .call (Value.eq_str_of_isText htype) hparts.1 hparts.2 hwrite (ih hlater)
        · cases h
      · rename_i hcallless
        exact .other (by simpa using hsilent) (by simpa using hcallless) (ih h)

/-- The texts of blocks are those that their text blocks hold. -/
theorem Gives.texts {blocks texts : List Value} {calls : List ToolCall}
    (h : Gives blocks texts calls) : texts = textsOf blocks := by
  induction h with
  | nil => rfl
  | text htype _ ih => simp [ih, textsOf, htype]
  | call htype _ _ _ _ ih => simp [ih, textsOf, htype]
  | other hsilent _ _ ih => simp [ih, textsOf, hsilent]

/-- The calls of blocks have all of their parts. -/
theorem Gives.filled {blocks texts : List Value} {calls : List ToolCall}
    (h : Gives blocks texts calls) : ∀ call ∈ calls, call.Filled fun _ => True := by
  induction h with
  | nil => simp
  | text _ _ ih => exact ih
  | @call block rest texts calls arguments _ hid hname hwrite _ ih =>
    refine List.forall_mem_cons.2 ⟨⟨hid, hname, ?_⟩, ih⟩
    exact ⟨arguments, _, rfl, Json.read_of_write hwrite, trivial⟩
  | other _ _ _ ih => exact ih

/-- A reply that is read is made of what its blocks give, and the usage. -/
theorem exists_of_replyOf (h : replyOf response = .ok m) : ∃ blocks texts calls text usage,
    (response.read "content").items = .ok blocks ∧ Gives blocks texts calls ∧
      Value.joinTexts texts = .ok text ∧ usageOf (response.read "usage") = .ok usage ∧
      m = Reply.message text calls usage (response.read "model")
        (response.read "stop_reason") := by
  simp only [replyOf] at h
  split at h
  · cases h
  obtain ⟨blocks, hblocks, h⟩ := Outcome.of_bind_eq_ok h
  obtain ⟨⟨texts, calls⟩, hsaid, h⟩ := Outcome.of_bind_eq_ok h
  obtain ⟨text, htext, h⟩ := Outcome.of_bind_eq_ok h
  obtain ⟨usage, husage, h⟩ := Outcome.of_bind_eq_ok h
  cases h
  exact ⟨blocks, texts, calls, text, usage, hblocks, gives_of_blocksOf hsaid, htext, husage, rfl⟩

/-- Every reply that the second vendor's reader makes is in shape. -/
theorem replyShape_of_replyOf (h : replyOf response = .ok m) :
    Vendor.anthropic.ReplyShape response m := by
  obtain ⟨blocks, texts, calls, text, usage, hblocks, hgives, htext, husage, rfl⟩ :=
    exists_of_replyOf h
  rw [hgives.texts] at htext
  apply Vendor.replyShape_message
  · exact (Outcome.bind_of_ok hblocks).trans htext
  · exact hgives.filled
  · exact known_of_usageOf husage

end Anthropic

/-! ### Content generation -/

namespace Google

variable {tag : String} {response : Value} {m : Message}

theorem known_of_usageOf {raw : Value} {usage : Option TokenUsage}
    (h : usageOf raw = .ok usage) : ∀ u ∈ usage, u.Known := by
  rw [usageOf_eq] at h
  exact TokenUsage.known_of_report h

theorem truthy_madeUpId (tag : String) (number : Nat) :
    (Value.str (madeUpId tag number)).truthy = true := by
  rw [Value.truthy_str, madeUpId]
  intro h
  have hlength := congrArg String.length h
  simp at hlength

/-- A call is made of a function call: the name and the id are what was sent, or the id is made up,
and the arguments are written anew. -/
structure IsCallOf (tag : String) (made : Nat) (raw : Value) (call : ToolCall) : Prop where
  named : (raw.read "name").truthy = true
  name : call.name = raw.read "name"
  id : call.id =
    if (raw.read "id").truthy then raw.read "id" else .str (madeUpId tag made)
  arguments : ∃ fields text, call.arguments = .str text ∧ Json.write (.dict fields) = .ok text

/-- What is read of a call is what is made of it. -/
theorem isCallOf_of_callOf {made after : Nat} {raw : Value} {call : ToolCall}
    (h : callOf tag made raw = .ok (call, after)) : IsCallOf tag made raw call := by
  simp only [callOf] at h
  split at h
  · cases h
  · rename_i hname
    obtain ⟨args, -, h⟩ := Outcome.of_bind_eq_ok h
    obtain ⟨arguments, hwrite, h⟩ := Outcome.of_bind_eq_ok h
    have hnamed : (raw.read "name").truthy = true := by simpa using hname
    split at h
    · rename_i hid
      cases h
      exact ⟨hnamed, rfl, (if_pos hid).symm, args, arguments, rfl, hwrite⟩
    · rename_i hid
      cases h
      exact ⟨hnamed, rfl, (if_neg hid).symm, args, arguments, rfl, hwrite⟩

/-- A call that is read has all of its parts, and a dictionary for its arguments. -/
theorem IsCallOf.filled {made : Nat} {raw : Value} {call : ToolCall}
    (h : IsCallOf tag made raw call) :
    call.Filled fun v => ∃ fields, v = .dict fields where
  id := by
    rw [h.id]
    split
    · rename_i hid
      exact hid
    · exact truthy_madeUpId tag made
  name := by
    rw [h.name]
    exact h.named
  arguments := by
    rcases h.arguments with ⟨fields, text, htext, hwrite⟩
    have hread := Json.read_of_write hwrite
    rw [Json.readBack] at hread
    exact ⟨text, _, htext, hread, _, rfl⟩

/-- What parts give, one after another: nothing if they are thoughts, else a call or a text. -/
inductive Gives (tag : String) : Nat → List Value → List Value → List ToolCall → Prop where
  | nil (made : Nat) : Gives tag made [] [] []
  | thought {made : Nat} {part : Value} {rest texts : List Value} {calls : List ToolCall}
      (thought : (part.read "thought").truthy = true) (later : Gives tag made rest texts calls) :
      Gives tag made (part :: rest) texts calls
  | call {made after : Nat} {part : Value} {rest texts : List Value} {call : ToolCall}
      {calls : List ToolCall} (spoken : (part.read "thought").truthy = false)
      (called : (callIn part).isNull = false) (is_call : IsCallOf tag made (callIn part) call)
      (later : Gives tag after rest texts calls) :
      Gives tag made (part :: rest) texts (call :: calls)
  | text {made : Nat} {part : Value} {rest texts : List Value} {calls : List ToolCall}
      (spoken : (part.read "thought").truthy = false) (plain : (callIn part).isNull = true)
      (later : Gives tag made rest texts calls) :
      Gives tag made (part :: rest)
        (if (part.read "text").truthy then part.read "text" :: texts else texts) calls

/-- What is read of parts is given by them, part by part. -/
theorem gives_of_partsOf {made : Nat} {parts texts : List Value} {calls : List ToolCall}
    (h : partsOf tag made parts = .ok (texts, calls)) : Gives tag made parts texts calls := by
  induction parts generalizing made texts calls with
  | nil =>
    cases h
    exact .nil made
  | cons part rest ih =>
    simp only [partsOf] at h
    split at h
    · rename_i hthought
      exact .thought hthought (ih h)
    · rename_i hthought
      have hspoken : (part.read "thought").truthy = false := by simpa using hthought
      split at h
      · rename_i hcall
        obtain ⟨⟨first, after⟩, hfirst, h⟩ := Outcome.of_bind_eq_ok h
        obtain ⟨⟨later, others⟩, hlater, h⟩ := Outcome.of_bind_eq_ok h
        cases h
        exact .call hspoken (by simpa [callIn] using hcall) (isCallOf_of_callOf hfirst) (ih hlater)
      · rename_i hcall
        obtain ⟨⟨later, others⟩, hlater, h⟩ := Outcome.of_bind_eq_ok h
        cases h
        exact .text hspoken (by simpa [callIn] using hcall) (ih hlater)

/-- The texts of parts are those that are no thoughts and no calls. -/
theorem Gives.texts {made : Nat} {parts texts : List Value} {calls : List ToolCall}
    (h : Gives tag made parts texts calls) : texts = textsOf parts := by
  induction h with
  | nil => rfl
  | thought hthought _ ih => simp [ih, textsOf, hthought]
  | call hspoken hcalled _ _ ih =>
    rw [callIn] at hcalled
    simp [ih, textsOf, hspoken, hcalled]
  | @text made part rest texts calls hspoken hplain _ ih =>
    rw [callIn] at hplain
    cases htext : (part.read "text").truthy <;> simp [ih, textsOf, hspoken, hplain, htext]

/-- The calls of parts have all of their parts. -/
theorem Gives.filled {made : Nat} {parts texts : List Value} {calls : List ToolCall}
    (h : Gives tag made parts texts calls) :
    ∀ call ∈ calls, call.Filled fun v => ∃ fields, v = .dict fields := by
  induction h with
  | nil => simp
  | thought _ _ ih => exact ih
  | call _ _ hmakes _ ih => exact List.forall_mem_cons.2 ⟨hmakes.filled, ih⟩
  | text _ _ _ ih => exact ih

/-- A candidate has the text and the calls that its parts give. -/
theorem exists_of_candidateOf {candidate : Value} {text : String} {calls : List ToolCall}
    (h : candidateOf tag candidate = .ok (text, calls)) : ∃ parts texts,
    ((candidate.read "content").field ["parts"] (.list [])).items = .ok parts ∧
      Gives tag 0 parts texts calls ∧ Value.joinTexts texts = .ok text := by
  obtain ⟨parts, hparts, h⟩ := Outcome.of_bind_eq_ok h
  obtain ⟨⟨texts, _⟩, hmade, h⟩ := Outcome.of_bind_eq_ok h
  obtain ⟨_, htext, h⟩ := Outcome.of_bind_eq_ok h
  cases h
  exact ⟨parts, texts, hparts, gives_of_partsOf hmade, htext⟩

/-- A reply that is read is made of what the parts of the first candidate give, and the usage. -/
theorem exists_of_replyOf (h : replyOf tag response = .ok m) :
    ∃ candidate parts texts calls text usage,
      (response.read "candidates").item 0 = .ok candidate ∧
      ((candidate.read "content").field ["parts"] (.list [])).items = .ok parts ∧
      Gives tag 0 parts texts calls ∧ Value.joinTexts texts = .ok text ∧
      usageOf response = .ok usage ∧
      m = Reply.message text calls usage (modelOf response) (finishReasonOf candidate) := by
  simp only [replyOf] at h
  split at h
  · cases h
  obtain ⟨candidate, hcandidate, h⟩ := Outcome.of_bind_eq_ok h
  obtain ⟨⟨text, calls⟩, hsaid, h⟩ := Outcome.of_bind_eq_ok h
  obtain ⟨usage, husage, h⟩ := Outcome.of_bind_eq_ok h
  cases h
  obtain ⟨parts, texts, hparts, hgives, htext⟩ := exists_of_candidateOf hsaid
  exact ⟨candidate, parts, texts, calls, text, usage, hcandidate, hparts, hgives, htext, husage,
    rfl⟩

/-- Every reply that the third vendor's reader makes is in shape. -/
theorem replyShape_of_replyOf (h : replyOf tag response = .ok m) :
    (Vendor.google tag).ReplyShape response m := by
  obtain ⟨candidate, parts, texts, calls, text, usage, hcandidate, hparts, hgives, htext, husage,
    rfl⟩ := exists_of_replyOf h
  rw [hgives.texts] at htext
  apply Vendor.replyShape_message
  · rw [Vendor.spokenText, Outcome.bind_of_ok hcandidate, spokenText, Outcome.bind_of_ok hparts]
    exact htext
  · exact hgives.filled
  · exact known_of_usageOf husage

end Google

/-! ### All vendors -/

/-- What passes the check of a reply is what was read. -/
theorem Reply.of_checked {α : Type} {vendor : Vendor} {x : Outcome α} {a : α}
    (h : checked vendor x = .ok a) : x = .ok a := by
  unfold checked at h
  split at h
  · cases h
  · cases h
  · exact h

/-- Whatever a response is, a reply that is read of it has the shape of one. -/
theorem Vendor.replyShape_of_readReply {vendor : Vendor} {response : Value} {m : Message}
    (h : vendor.readReply response = .ok m) : vendor.ReplyShape response m := by
  cases vendor with
  | openAI label => exact OpenAI.replyShape_of_replyOf (Reply.of_checked h)
  | anthropic => exact Anthropic.replyShape_of_replyOf (Reply.of_checked h)
  | google tag => exact Google.replyShape_of_replyOf (Reply.of_checked h)

end Parley
