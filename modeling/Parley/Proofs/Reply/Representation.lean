import Parley.Proofs.Value.Likeness
import Parley.Vendor.Reading

/-!
# Replies in different representations

What is read of a response or an event does not depend on how it is represented: whether a node of
it is a dictionary or an object of the vendor's client library, and, for the service that has two
spellings, by which spelling a field goes. The nodes of a vendor's data are described by layouts;
every function of a reader gives the same for alike nodes.

* `Vendor.likeness`: alike responses and events of a vendor;
* `readings_of_alike`: the readers give the same for alike data.
-/

namespace Parley

open Likeness

variable {v w : Value} {vs ws : List Value}

/-! ## Chat completions -/

namespace OpenAI

def callLayout : Layout :=
  ⟨[⟨["function"], record⟩], by simp⟩

/-- A message or delta: its content may be a list of parts, and it has a list of calls. -/
def messageLayout : Layout :=
  ⟨[⟨["content"], list record⟩, ⟨["tool_calls"], list (node callLayout)⟩], by simp⟩

def choiceLayout : Layout :=
  ⟨[⟨["message"], node messageLayout⟩, ⟨["delta"], node messageLayout⟩], by simp⟩

/-- A response or event: a list of choices and a usage record. -/
def layout : Layout :=
  ⟨[⟨["choices"], list (node choiceLayout)⟩, ⟨["usage"], record⟩], by simp⟩

/-- Usage is read alike from all forms of a reply. -/
theorem usageOf_eq_of_alike (h : (node layout).Rel v w) : usageOf v = usageOf w := by
  have husage : record.Rel (v.read "usage") (w.read "usage") :=
    field_of_node (.tail _ (.head _)) h .null
  simp only [usageOf, record.isNull_eq husage, read_eq_of_record husage]

theorem textOf_eq_of_alike (h : (list record).Rel v w) : textOf v = textOf w := by
  rcases h with rfl | ⟨vs, ws, rfl, rfl, hparts⟩
  · rfl
  · have htexts : (vs.filter fun part =>
        (part.read "type").isNull || (part.read "type").isText "text").map
          (fun part => part.field ["text"] (.str "")) =
        (ws.filter fun part =>
          (part.read "type").isNull || (part.read "type").isText "text").map
            fun part => part.field ["text"] (.str "") := by
      induction hparts with
      | nil => rfl
      | cons hpart _ ih =>
        simp only [List.filter_cons, read_eq_of_record hpart]
        split
        · rw [List.map_cons, List.map_cons, field_eq_of_record hpart, ih]
        · exact ih
    exact congrArg Value.joinTexts htexts

/-- The function of a call is read alike. -/
theorem function_of_alike (h : (node callLayout).Rel v w) (name : String) (default : Value) :
    (v.read "function").field [name] default = (w.read "function").field [name] default := by
  have hfunction : record.Rel (v.read "function") (w.read "function") :=
    field_of_node (.head _) h .null
  exact field_eq_of_record hfunction name default

/-- A call is read alike from all of its forms. -/
theorem callOf_eq_of_alike (vendor : Vendor) (h : (node callLayout).Rel v w) :
    callOf vendor v = callOf vendor w := by
  have hid : v.field ["id"] (.str "") = w.field ["id"] (.str "") :=
    field_eq_of_node (by simp [callLayout]) h _
  have hname : (v.read "function").read "name" = (w.read "function").read "name" :=
    function_of_alike h "name" .null
  simp only [callOf, hid, hname, function_of_alike h]

theorem fragmentOf_eq_of_alike (h : (node callLayout).Rel v w) : fragmentOf v = fragmentOf w := by
  have hid : v.field ["id"] (.str "") = w.field ["id"] (.str "") :=
    field_eq_of_node (by simp [callLayout]) h _
  simp only [fragmentOf, hid, function_of_alike h]

theorem indicesFrom_eq_of_alike (h : List.Forall₂ (node callLayout).Rel vs ws) (position : Nat) :
    indicesFrom position vs = indicesFrom position ws := by
  induction h generalizing position with
  | nil => rfl
  | @cons v w vs ws hfirst _ ih =>
    have hindex : v.field ["index"] (.int position) = w.field ["index"] (.int position) :=
      field_eq_of_node (by simp [callLayout]) hfirst _
    rw [indicesFrom, indicesFrom, hindex, ih]

/-- A reply is read alike from all of its forms. -/
theorem replyOf_eq_of_alike (vendor : Vendor) (h : (node layout).Rel v w) :
    replyOf vendor v = replyOf vendor w := by
  have hchoices : (list (node choiceLayout)).Rel (v.read "choices") (w.read "choices") :=
    field_of_node (.head _) h .null
  have hmodel : v.read "model" = w.read "model" := field_eq_of_node (by simp [layout]) h .null
  simp only [replyOf, truthy_eq_of_list hchoices, usageOf_eq_of_alike h, hmodel]
  split
  · rfl
  refine (first_of_list hchoices).bind_eq fun choice other hchoice => ?_
  have hmessage : (node messageLayout).Rel (choice.read "message") (other.read "message") :=
    field_of_node (.head _) hchoice .null
  have hreason : choice.read "finish_reason" = other.read "finish_reason" :=
    field_eq_of_node (by simp [choiceLayout]) hchoice .null
  have hcontent : (list record).Rel ((choice.read "message").read "content")
      ((other.read "message").read "content") :=
    field_of_node (.head _) hmessage .null
  simp only [(node messageLayout).isNull_eq hmessage, hreason, textOf_eq_of_alike hcontent]
  split
  · rfl
  refine (items_of_list (field_of_node (.tail _ (.head _)) hmessage _)).bind_eq
    fun raws others hraws => ?_
  rw [Outcome.mapM_eq_mapM hraws fun _ _ => callOf_eq_of_alike vendor]

theorem chunkOf_eq_of_alike (h : (node layout).Rel v w) : chunkOf v = chunkOf w := by
  have hchoices : (list (node choiceLayout)).Rel (v.read "choices") (w.read "choices") :=
    field_of_node (.head _) h .null
  have hmodel : v.read "model" = w.read "model" := field_eq_of_node (by simp [layout]) h .null
  simp only [chunkOf, truthy_eq_of_list hchoices, usageOf_eq_of_alike h, hmodel]
  refine congrArg _ (funext fun usage => ?_)
  split
  · rfl
  refine (first_of_list hchoices).bind_eq fun choice other hchoice => ?_
  have hdelta : (node messageLayout).Rel (choice.read "delta") (other.read "delta") :=
    field_of_node (.tail _ (.head _)) hchoice .null
  have hreason : choice.read "finish_reason" = other.read "finish_reason" :=
    field_eq_of_node (by simp [choiceLayout]) hchoice .null
  have hcontent : (list record).Rel ((choice.read "delta").read "content")
      ((other.read "delta").read "content") :=
    field_of_node (.head _) hdelta .null
  simp only [hreason, textOf_eq_of_alike hcontent]
  refine (items_of_list (field_of_node (.tail _ (.head _)) hdelta _)).bind_eq
    fun raws others hraws => ?_
  rw [isEmpty_of_forall₂ hraws, indicesFrom_eq_of_alike hraws,
    map_eq_map_of_forall₂ hraws fun _ _ _ => fragmentOf_eq_of_alike]

end OpenAI

/-! ## The messages service -/

namespace Anthropic

def messageLayout : Layout :=
  ⟨[⟨["usage"], record⟩], by simp⟩

/-- A response or event: a list of blocks, a usage record, a message, a block and a delta. -/
def layout : Layout :=
  ⟨[⟨["content"], list record⟩, ⟨["usage"], record⟩, ⟨["message"], node messageLayout⟩,
    ⟨["content_block"], record⟩, ⟨["delta"], record⟩], by simp⟩

theorem usageOf_eq_of_alike (h : record.Rel v w) : usageOf v = usageOf w := by
  simp only [usageOf, record.isNull_eq h, read_eq_of_record h]

/-- Blocks are read alike from all of their forms. -/
theorem blocksOf_eq_of_alike (h : List.Forall₂ record.Rel vs ws) : blocksOf vs = blocksOf ws := by
  induction h with
  | nil => rfl
  | cons hfirst _ ih =>
    simp only [blocksOf, read_eq_of_record hfirst, field_eq_of_record hfirst, ih]

theorem replyOf_eq_of_alike (h : (node layout).Rel v w) : replyOf v = replyOf w := by
  have hcontent : (list record).Rel (v.read "content") (w.read "content") :=
    field_of_node (.head _) h .null
  have husage : record.Rel (v.read "usage") (w.read "usage") :=
    field_of_node (.tail _ (.head _)) h .null
  have hread : ∀ name ∈ ["model", "stop_reason"], v.read name = w.read name := by
    intro name hname
    refine field_eq_of_node ?_ h .null
    rcases List.mem_pair.1 hname with rfl | rfl <;> simp [layout]
  simp only [replyOf, (list record).isNull_eq hcontent, usageOf_eq_of_alike husage,
    hread "model" (by simp), hread "stop_reason" (by simp)]
  split
  · rfl
  refine (items_of_list hcontent).bind_eq fun blocks others hblocks => ?_
  rw [blocksOf_eq_of_alike hblocks]

theorem chunkOf_eq_of_alike (h : (node layout).Rel v w) : chunkOf v = chunkOf w := by
  have htype : v.read "type" = w.read "type" := field_eq_of_node (by simp [layout]) h .null
  have hindex : blockIndex v = blockIndex w :=
    congrArg (fun index => [index]) (field_eq_of_node (by simp [layout]) h (.int 0))
  have husage : record.Rel (v.read "usage") (w.read "usage") :=
    field_of_node (.tail _ (.head _)) h .null
  have hmessage : (node messageLayout).Rel (v.read "message") (w.read "message") :=
    field_of_node (.tail _ (.tail _ (.head _))) h .null
  have hblock : record.Rel (v.read "content_block") (w.read "content_block") :=
    field_of_node (.tail _ (.tail _ (.tail _ (.head _)))) h .null
  have hdelta : record.Rel (v.read "delta") (w.read "delta") :=
    field_of_node (.tail _ (.tail _ (.tail _ (.tail _ (.head _))))) h .null
  have hstarted : record.Rel ((v.read "message").read "usage")
      ((w.read "message").read "usage") :=
    field_of_node (.head _) hmessage .null
  have hmodel : (v.read "message").read "model" = (w.read "message").read "model" :=
    field_eq_of_node (by simp [messageLayout]) hmessage .null
  have hstart : startChunk v = startChunk w := by
    simp only [startChunk, usageOf_eq_of_alike hstarted, hmodel]
  have hopen : blockChunk v = blockChunk w := by
    simp only [blockChunk, read_eq_of_record hblock, hindex]
  have hcontinue : deltaChunk v = deltaChunk w := by
    simp only [deltaChunk, read_eq_of_record hdelta, field_eq_of_record hdelta, hindex]
  have hfinal : finalChunk v = finalChunk w := by
    simp only [finalChunk, usageOf_eq_of_alike husage, read_eq_of_record hdelta]
  simp only [chunkOf, htype, hstart, hopen, hcontinue, hfinal]

end Anthropic

/-! ## Content generation -/

namespace Google

/-- A usage record, each of whose counts has two spellings. -/
def usageLayout : Layout :=
  ⟨[⟨["prompt_token_count", "promptTokenCount"], same⟩,
    ⟨["candidates_token_count", "candidatesTokenCount"], same⟩,
    ⟨["total_token_count", "totalTokenCount"], same⟩], by simp⟩

/-- A part: it may be a call, under either of two spellings. -/
def partLayout : Layout :=
  ⟨[⟨["function_call", "functionCall"], record⟩], by simp⟩

def contentLayout : Layout :=
  ⟨[⟨["parts"], list (node partLayout)⟩], by simp⟩

/-- A candidate: a content, and a finish reason under either of two spellings. -/
def candidateLayout : Layout :=
  ⟨[⟨["content"], node contentLayout⟩, ⟨["finish_reason", "finishReason"], same⟩], by simp⟩

/-- A response or event: a list of candidates, and three entries with two spellings each. -/
def layout : Layout :=
  ⟨[⟨["candidates"], list (node candidateLayout)⟩,
    ⟨["usage_metadata", "usageMetadata"], node usageLayout⟩,
    ⟨["model_version", "modelVersion"], same⟩,
    ⟨["prompt_feedback", "promptFeedback"], same⟩], by simp⟩

theorem usageOf_eq_of_alike (h : (node layout).Rel v w) : usageOf v = usageOf w := by
  have husage : (node usageLayout).Rel (v.field ["usage_metadata", "usageMetadata"] .null)
      (w.field ["usage_metadata", "usageMetadata"] .null) :=
    field_of_node (.tail _ (.head _)) h .null
  have hprompt := field_of_node (.head _) husage .null
  have hcandidates := field_of_node (.tail _ (.head _)) husage .null
  have htotal := field_of_node (.tail _ (.tail _ (.head _))) husage .null
  simp only [same] at hprompt hcandidates htotal
  simp only [usageOf, (node usageLayout).isNull_eq husage, hprompt, hcandidates, htotal]

theorem callOf_eq_of_alike (tag : String) (made : Nat) (h : record.Rel v w) :
    callOf tag made v = callOf tag made w := by
  simp only [callOf, read_eq_of_record h, field_eq_of_record h]

/-- Parts are read alike from all of their forms, from any number on. -/
theorem partsOf_eq_of_alike (tag : String) (made : Nat)
    (h : List.Forall₂ (node partLayout).Rel vs ws) :
    partsOf tag made vs = partsOf tag made ws := by
  induction h generalizing made with
  | nil => rfl
  | @cons v w vs ws hfirst _ ih =>
    have hread : ∀ name ∈ ["thought", "text"], v.read name = w.read name := by
      intro name hname
      refine field_eq_of_node ?_ hfirst .null
      rcases List.mem_pair.1 hname with rfl | rfl <;> simp [partLayout]
    have hcall : record.Rel (v.field ["function_call", "functionCall"] .null)
        (w.field ["function_call", "functionCall"] .null) :=
      field_of_node (.head _) hfirst .null
    simp only [partsOf, hread "thought" (by simp), hread "text" (by simp),
      record.isNull_eq hcall, callOf_eq_of_alike tag made hcall, ih]

theorem candidateOf_eq_of_alike (tag : String) (h : (node candidateLayout).Rel v w) :
    candidateOf tag v = candidateOf tag w := by
  have hcontent : (node contentLayout).Rel (v.read "content") (w.read "content") :=
    field_of_node (.head _) h .null
  refine (items_of_list (field_of_node (.head _) hcontent _)).bind_eq fun parts others hparts => ?_
  rw [partsOf_eq_of_alike tag 0 hparts]

theorem finishReasonOf_eq_of_alike (h : (node candidateLayout).Rel v w) :
    finishReasonOf v = finishReasonOf w := by
  have hreason : v.field ["finish_reason", "finishReason"] .null =
      w.field ["finish_reason", "finishReason"] .null :=
    field_of_node (.tail _ (.head _)) h .null
  simp only [finishReasonOf, hreason]

theorem modelOf_eq_of_alike (h : (node layout).Rel v w) : modelOf v = modelOf w :=
  field_of_node (.tail _ (.tail _ (.head _))) h .null

theorem replyOf_eq_of_alike (tag : String) (h : (node layout).Rel v w) :
    replyOf tag v = replyOf tag w := by
  have hcandidates : (list (node candidateLayout)).Rel (v.read "candidates")
      (w.read "candidates") :=
    field_of_node (.head _) h .null
  simp only [replyOf, truthy_eq_of_list hcandidates, usageOf_eq_of_alike h, modelOf_eq_of_alike h]
  split
  · rfl
  refine (first_of_list hcandidates).bind_eq fun candidate other hcandidate => ?_
  rw [candidateOf_eq_of_alike tag hcandidate, finishReasonOf_eq_of_alike hcandidate]

theorem chunkOf_eq_of_alike (tag : String) (h : (node layout).Rel v w) :
    chunkOf tag v = chunkOf tag w := by
  have hcandidates : (list (node candidateLayout)).Rel (v.read "candidates")
      (w.read "candidates") :=
    field_of_node (.head _) h .null
  simp only [chunkOf, truthy_eq_of_list hcandidates, usageOf_eq_of_alike h, modelOf_eq_of_alike h]
  refine congrArg _ (funext fun usage => ?_)
  split
  · rfl
  refine (first_of_list hcandidates).bind_eq fun candidate other hcandidate => ?_
  rw [candidateOf_eq_of_alike tag hcandidate, finishReasonOf_eq_of_alike hcandidate]

end Google

/-! ## All vendors -/

/-- Responses and events of a vendor that differ in representation only. -/
def Vendor.likeness : Vendor → Likeness
  | .openAI _ => node OpenAI.layout
  | .anthropic => node Anthropic.layout
  | .google _ => node Google.layout

/-- A response is read as the same reply or the same fault, and an event as the same chunk or
skipped alike, however they are represented. -/
theorem readings_of_alike {vendor : Vendor} {raw other : Value}
    (h : vendor.likeness.Rel raw other) :
    vendor.readReply raw = vendor.readReply other ∧
      vendor.readEvent raw = vendor.readEvent other := by
  cases vendor with
  | openAI label =>
    exact ⟨congrArg (Reply.checked _) (OpenAI.replyOf_eq_of_alike _ h),
      congrArg Reading.ofOutcome (OpenAI.chunkOf_eq_of_alike h)⟩
  | anthropic =>
    exact ⟨congrArg (Reply.checked _) (Anthropic.replyOf_eq_of_alike h),
      congrArg Reading.ofOutcome (Anthropic.chunkOf_eq_of_alike h)⟩
  | google tag =>
    exact ⟨congrArg (Reply.checked _) (Google.replyOf_eq_of_alike tag h),
      congrArg Reading.ofOutcome (Google.chunkOf_eq_of_alike tag h)⟩

/-! ### A call in two representations -/

namespace Google

/-- A reply with a call, as plain data in the interchange spelling. -/
def plainWeather : Value :=
  .dict [
    ("candidates", .list [.dict [
      ("content", .dict [("parts", .list [.dict [
        ("functionCall", .dict [("name", .str "weather"), ("id", .str "call_1")])]])]),
      ("finishReason", .str "STOP")]]),
    ("usageMetadata", .dict [("promptTokenCount", .int 3)])]

/-- The same reply as objects of the client library, but for its usage record. -/
def objectWeather : Value :=
  .object .vendor [
    ("candidates", .list [.object .vendor [
      ("content", .object .vendor [("parts", .list [.object .vendor [
        ("function_call", .object .vendor [("name", .str "weather"), ("id", .str "call_1")])]])]),
      ("finish_reason", .str "STOP")]]),
    ("usage_metadata", .dict [("prompt_token_count", .int 3)])]

/-- The weather is told alike by dictionaries and by objects. -/
theorem alike_weather : (node layout).Rel plainWeather objectWeather := by
  refine rel_of_fields rfl rfl (by decide) (by decide)
    (.cons (fieldLike_of_slot (.head _) (by decide) (by decide) ?candidates)
      (.cons (fieldLike_of_slot (.tail _ (.head _)) (by decide) (by decide) ?usage) .nil))
  case candidates =>
    refine .inr ⟨_, _, rfl, rfl, .cons (rel_of_fields rfl rfl (by decide) (by decide)
      (.cons (fieldLike_of_slot (.head _) (by decide) (by decide) ?content)
        (.cons (fieldLike_of_slot (.tail _ (.head _)) (by decide) (by decide) rfl) .nil))) .nil⟩
    refine rel_of_fields rfl rfl (by decide) (by decide)
      (.cons (fieldLike_of_slot (.head _) (by decide) (by decide) ?parts) .nil)
    refine .inr ⟨_, _, rfl, rfl, .cons (rel_of_fields rfl rfl (by decide) (by decide)
      (.cons (fieldLike_of_slot (.head _) (by decide) (by decide) ?call) .nil)) .nil⟩
    exact rel_of_fields rfl rfl (by decide) (by decide)
      (.cons (.inl rfl) (.cons (.inl rfl) .nil))
  case usage =>
    exact rel_of_fields rfl rfl (by decide) (by decide)
      (.cons (fieldLike_of_slot (.head _) (by decide) (by decide) rfl) .nil)

end Google

/-- The call is read, the same from both. -/
theorem readings_of_alike_weather :
    (Vendor.google "0").likeness.Rel Google.plainWeather Google.objectWeather ∧
      (Vendor.google "0").readReply Google.plainWeather =
        (Vendor.google "0").readReply Google.objectWeather ∧
      (Vendor.google "0").readEvent Google.plainWeather =
        (Vendor.google "0").readEvent Google.objectWeather ∧
      ∃ m, (Vendor.google "0").readEvent Google.objectWeather = .ok (.chunk m) := by
  have halike : (Vendor.google "0").likeness.Rel Google.plainWeather Google.objectWeather :=
    Google.alike_weather
  have hreadings := readings_of_alike halike
  exact ⟨halike, hreadings.1, hreadings.2, _, rfl⟩

end Parley
