import Parley.Proofs.Reply.Shape

/-!
# What replies store as it was sent

The calls of a reply are put together from what the vendor sent. On two of the services their
arguments are written anew and are texts. Ids and names, and on the third service the arguments, are
stored as they are, whatever they are.

* `Vendor.storedParts`: the parts of the calls of a response that are stored as they are sent;
* `Vendor.stores_of_readReply`: the calls of a reply are made of texts exactly if these parts are.
-/

namespace Parley

def Value.Textual (v : Value) : Prop :=
  ∃ s, v = .str s

/-! ## Calls made of texts -/

namespace ToolCall

structure Textual (call : ToolCall) : Prop where
  id : call.id.Textual
  name : call.name.Textual
  arguments : call.arguments.Textual

theorem textual_toCall (text : TextCall) : text.toCall.Textual :=
  ⟨⟨_, rfl⟩, ⟨_, rfl⟩, ⟨_, rfl⟩⟩

/-- A call all of whose parts are texts is a call of texts. -/
theorem Textual.exists_toCall {call : ToolCall} (h : call.Textual) :
    ∃ text : TextCall, call = text.toCall := by
  rcases call with ⟨id, name, arguments⟩
  rcases h with ⟨⟨s, rfl⟩, ⟨t, rfl⟩, ⟨u, rfl⟩⟩
  exact ⟨⟨s, t, u⟩, rfl⟩

theorem toValue_injective : Function.Injective toValue := by
  intro call other h
  have hcall := ofObject?_toValue call
  rw [h, ofObject?_toValue] at hcall
  exact (Option.some.inj hcall).symm

/-- Stored calls are calls of texts exactly if all of their parts are texts. -/
theorem exists_texts_iff {calls : List ToolCall} :
    (∃ texts : List TextCall, calls.map toValue = texts.map TextCall.toValue) ↔
      ∀ call ∈ calls, call.Textual := by
  constructor
  · rintro ⟨texts, h⟩
    have hcalls : calls = texts.map TextCall.toCall := by
      apply toValue_injective.list_map
      rw [h, List.map_map]
      rfl
    rw [hcalls]
    simp [textual_toCall]
  · intro h
    induction calls with
    | nil => exact ⟨[], rfl⟩
    | cons call rest ih =>
      rcases List.forall_mem_cons.1 h with ⟨hcall, hrest⟩
      rcases hcall.exists_toCall with ⟨text, rfl⟩
      rcases ih hrest with ⟨texts, htexts⟩
      exact ⟨text :: texts, by rw [List.map_cons, htexts]; rfl⟩

end ToolCall

/-- A message that is spoken is made of texts if its content and its calls are. -/
theorem Message.Spoken.wellTyped_iff {m : Message} {calls : List ToolCall} (h : m.Spoken)
    (hcontent : m.content.IsOptionalText) (hcalls : m.toolCalls = calls.map ToolCall.toValue) :
    m.WellTyped ↔ ∀ call ∈ calls, call.Textual := by
  rw [← ToolCall.exists_texts_iff, ← hcalls]
  constructor
  · intro htyped
    exact htyped.toolCalls
  · intro htexts
    exact ⟨hcontent, .inl h.toolCallId, .inl h.name, htexts⟩

/-! ## What is stored -/

/-- The parts of a call of a chat completion that are stored: all of them. -/
def OpenAI.storedIn (raw : Value) : List Value :=
  let function := raw.read "function"
  [raw.field ["id"] (.str ""), function.read "name", function.field ["arguments"] (.str "")]

/-- The parts of a tool block that are stored. The input is written anew. -/
def Anthropic.storedIn (block : Value) : List Value :=
  if (block.read "type").isText "tool_use" then [block.read "id", block.read "name"] else []

/-- The parts of a function call that are stored, of a part that is no thought. The arguments are
written anew, and an id is made up if there is none. -/
def Google.storedIn (part : Value) : List Value :=
  let call := callIn part
  if (part.read "thought").truthy || call.isNull then []
  else call.read "name" :: if (call.read "id").truthy then [call.read "id"] else []

/-- The parts of the calls of a response that are stored as they are sent. -/
def Vendor.storedParts (vendor : Vendor) (response : Value) : Outcome (List Value) :=
  match vendor with
  | .openAI _ => do
    let choice ← (response.read "choices").item 0
    let raws ← ((choice.read "message").field ["tool_calls"] (.list [])).items
    return raws.flatMap OpenAI.storedIn
  | .anthropic => do return (← (response.read "content").items).flatMap Anthropic.storedIn
  | .google _ => do
    let candidate ← (response.read "candidates").item 0
    let parts ← ((candidate.read "content").field ["parts"] (.list [])).items
    return parts.flatMap Google.storedIn

/-- The calls of a message are made of texts exactly if what is stored of a response is. -/
def Vendor.Stores (vendor : Vendor) (response : Value) (m : Message) : Prop :=
  ∃ (calls : List ToolCall) (stored : List Value), m.toolCalls = calls.map ToolCall.toValue ∧
    vendor.storedParts response = .ok stored ∧
    ((∀ call ∈ calls, call.Textual) ↔ ∀ v ∈ stored, v.Textual)

namespace OpenAI

/-- A call that is read is one of texts exactly if what is stored as found is. -/
theorem textual_of_callOf {vendor : Vendor} {raw : Value} {call : ToolCall}
    (h : callOf vendor raw = .ok call) : call.Textual ↔ ∀ v ∈ storedIn raw, v.Textual := by
  rcases callOf_eq_ok_iff.1 h with ⟨-, rfl⟩
  simp only [storedIn, List.forall_mem_cons]
  constructor
  · rintro ⟨hid, hname, harguments⟩
    exact ⟨hid, hname, harguments, by simp⟩
  · rintro ⟨hid, hname, harguments, -⟩
    exact ⟨hid, hname, harguments⟩

theorem textual_of_mapM {vendor : Vendor} {raws : List Value} {calls : List ToolCall}
    (h : raws.mapM (callOf vendor) = .ok calls) :
    (∀ call ∈ calls, call.Textual) ↔ ∀ v ∈ raws.flatMap storedIn, v.Textual := by
  rw [Outcome.mapM_eq_ok_iff] at h
  induction h with
  | nil => simp
  | cons hcall _ ih =>
    rw [List.forall_mem_cons, List.flatMap_cons, List.forall_mem_append, ih,
      textual_of_callOf hcall]

/-- What the first vendor's reader stores is the id, the name and the arguments of every call. -/
theorem stores_of_replyOf {vendor : Vendor} {label response : Value} {m : Message}
    (h : replyOf vendor response = .ok m) : (Vendor.openAI label).Stores response m := by
  obtain ⟨choice, raws, calls, text, usage, hchoice, hraws, hcalls, -, -, rfl⟩ :=
    exists_of_replyOf h
  refine ⟨calls, raws.flatMap storedIn, rfl, ?_, textual_of_mapM hcalls⟩
  rw [Vendor.storedParts, Outcome.bind_of_ok hchoice, Outcome.bind_of_ok hraws]
  rfl

end OpenAI

namespace Anthropic

/-- The arguments of a block are written as a text, so only its id and name are stored as found. -/
theorem Gives.textual_iff {blocks texts : List Value} {calls : List ToolCall}
    (h : Gives blocks texts calls) :
    (∀ call ∈ calls, call.Textual) ↔ ∀ v ∈ blocks.flatMap storedIn, v.Textual := by
  induction h with
  | nil => simp
  | text htype _ ih => simp [storedIn, htype, ih]
  | @call block rest texts calls arguments htype _ _ _ _ ih =>
    have hstored : storedIn block = [block.read "id", block.read "name"] := by
      simp [storedIn, htype]
    rw [List.forall_mem_cons, List.flatMap_cons, List.forall_mem_append, ih, hstored]
    refine and_congr_left fun _ => ?_
    -- the arguments are a text, whatever the input is
    constructor
    · rintro ⟨hid, hname, -⟩
      simp [hid, hname]
    · intro hall
      exact ⟨hall _ (by simp), hall _ (by simp), arguments, rfl⟩
  | other _ hcallless _ ih => simp [storedIn, hcallless, ih]

/-- What the second vendor's reader stores is the id and the name of every call. -/
theorem stores_of_replyOf {response : Value} {m : Message} (h : replyOf response = .ok m) :
    Vendor.anthropic.Stores response m := by
  obtain ⟨blocks, texts, calls, text, usage, hblocks, hgives, -, -, rfl⟩ := exists_of_replyOf h
  refine ⟨calls, blocks.flatMap storedIn, rfl, ?_, hgives.textual_iff⟩
  rw [Vendor.storedParts, Outcome.bind_of_ok hblocks]
  rfl

end Anthropic

namespace Google

/-- A call without an id gets one that is a text. -/
theorem IsCallOf.textual_iff {tag : String} {made : Nat} {part : Value} {call : ToolCall}
    (hspoken : (part.read "thought").truthy = false) (hcalled : (callIn part).isNull = false)
    (h : IsCallOf tag made (callIn part) call) :
    call.Textual ↔ ∀ v ∈ storedIn part, v.Textual := by
  have harguments : call.arguments.Textual := by
    rcases h.arguments with ⟨fields, text, htext, -⟩
    exact ⟨text, htext⟩
  have hparts : call.Textual ↔ call.id.Textual ∧ call.name.Textual := by
    constructor
    · rintro ⟨hid, hname, -⟩
      exact ⟨hid, hname⟩
    · rintro ⟨hid, hname⟩
      exact ⟨hid, hname, harguments⟩
  rw [hparts, h.id, h.name]
  -- an id that was not sent is made up, and a text
  cases hid : ((callIn part).read "id").truthy with
  | true => simp [storedIn, hspoken, hcalled, hid, and_comm]
  | false => simp [storedIn, hspoken, hcalled, hid, Value.Textual]

theorem Gives.textual_iff {tag : String} {made : Nat} {parts texts : List Value}
    {calls : List ToolCall} (h : Gives tag made parts texts calls) :
    (∀ call ∈ calls, call.Textual) ↔ ∀ v ∈ parts.flatMap storedIn, v.Textual := by
  induction h with
  | nil => simp
  | thought hthought _ ih => simp [storedIn, hthought, ih]
  | call hspoken hcalled hmakes _ ih =>
    rw [List.forall_mem_cons, List.flatMap_cons, List.forall_mem_append, ih,
      hmakes.textual_iff hspoken hcalled]
  | text _ hplain _ ih => simp [storedIn, hplain, ih]

/-- What the third vendor's reader stores is the name of every call, and its id if it has one. -/
theorem stores_of_replyOf {tag : String} {response : Value} {m : Message}
    (h : replyOf tag response = .ok m) : (Vendor.google tag).Stores response m := by
  obtain ⟨candidate, parts, texts, calls, text, usage, hcandidate, hparts, hgives, -, -, rfl⟩ :=
    exists_of_replyOf h
  refine ⟨calls, parts.flatMap storedIn, rfl, ?_, hgives.textual_iff⟩
  rw [Vendor.storedParts, Outcome.bind_of_ok hcandidate, Outcome.bind_of_ok hparts]
  rfl

end Google

theorem Vendor.stores_of_readReply {vendor : Vendor} {response : Value} {m : Message}
    (h : vendor.readReply response = .ok m) : vendor.Stores response m := by
  cases vendor with
  | openAI label => exact OpenAI.stores_of_replyOf (Reply.of_checked h)
  | anthropic => exact Anthropic.stores_of_replyOf (Reply.of_checked h)
  | google tag => exact Google.stores_of_replyOf (Reply.of_checked h)

end Parley
