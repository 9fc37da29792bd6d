import Parley.Proofs.Reply.Anthropic
import Parley.Proofs.Reply.Google
import Parley.Proofs.Reply.OpenAI
import Parley.Proofs.Value.Faults
import Parley.Vendor.Reading

/-!
# What can go wrong in reading replies

The readers take whatever a vendor sends. Reading a response that is not as it should be ends in a
fault of the reply, and an event that is not as it should be is skipped, with a single exception:
token counts that cannot be added. Of an event the counts are read first, so it is exactly by them
that a reader stops.

* `Vendor.readReply_cases`: the ways to end of reading a response;
* `Vendor.readEvent_eq_range_iff`, `Vendor.exists_reading_iff`: the events that stop a reader.
-/

namespace Parley

open Outcome

variable {P : Fault → Prop}

/-! ## Chat completions -/

namespace OpenAI

/-- The counts that a response or event reports have no sum. -/
def Overflows (raw : Value) : Prop :=
  TokenUsage.Overflows ((raw.read "usage").read "prompt_tokens")
    ((raw.read "usage").read "completion_tokens") ((raw.read "usage").read "total_tokens")

/-- The usage is out of range exactly if the counts overflow. -/
theorem usageOf_eq_range_iff {raw : Value} : usageOf raw = misuse .range ↔ Overflows raw := by
  rw [usageOf_eq, TokenUsage.report_eq_range_iff, Overflows]

/-- Reading it fails for that, or as all misshaped data does. -/
theorem failsWith_usageOf (raw : Value) :
    FailsWith (fun fault => fault.IsSkipped ∨ fault = .misuse .range ∧ Overflows raw)
      (usageOf raw) := by
  rw [usageOf_eq]
  exact TokenUsage.failsWith_report _ _ _

theorem skips_textOf (content : Value) : Skips (textOf content) := by
  cases content with
  | list parts => exact Value.skips_joinTexts _
  | null | str => exact failsWith_ok _
  | _ => exact Value.skips_spelled _

/-- A call that cannot be read is skipped. -/
theorem skips_callOf (vendor : Vendor) (raw : Value) : Skips (callOf vendor raw) := by
  simp only [callOf]
  split
  · exact failsWith_ok _
  · exact skips_reply _

/-- A reply fails as its usage does, or is skipped. -/
theorem failsWith_replyOf (vendor : Vendor) {response : Value}
    (hskip : ∀ fault, fault.IsSkipped → P fault) (husage : FailsWith P (usageOf response)) :
    FailsWith P (replyOf vendor response) := by
  simp only [replyOf]
  split
  · exact (skips_reply _).imp hskip
  · refine ((Value.skips_item _ 0).imp hskip).bind fun choice _ => ?_
    split
    · exact (skips_reply _).imp hskip
    · refine ((Value.skips_items _).imp hskip).bind fun raws _ => ?_
      refine ((failsWith_mapM (skips_callOf vendor) raws).imp hskip).bind fun calls _ => ?_
      refine ((skips_textOf _).imp hskip).bind fun text _ => ?_
      exact husage.bind fun usage _ => failsWith_ok _

/-- An event fails as its usage does, or is skipped. -/
theorem failsWith_chunkOf {event : Value} (hskip : ∀ fault, fault.IsSkipped → P fault)
    (husage : FailsWith P (usageOf event)) : FailsWith P (chunkOf event) := by
  refine husage.bind fun usage _ => ?_
  dsimp only
  split
  · cases usage <;> exact failsWith_ok _
  · refine ((Value.skips_item _ 0).imp hskip).bind fun choice _ => ?_
    refine ((Value.skips_items _).imp hskip).bind fun raws _ => ?_
    refine ((skips_textOf _).imp hskip).bind fun text _ => ?_
    split <;> exact failsWith_ok _

/-- An event with counts that overflow is out of range. -/
theorem chunkOf_of_overflows {event : Value} (h : Overflows event) :
    chunkOf event = misuse .range := by
  rw [chunkOf, usageOf_eq_range_iff.2 h]
  rfl

end OpenAI

/-! ## The messages service -/

namespace Anthropic

def CountsOverflow (usage : Value) : Prop :=
  TokenUsage.Overflows (usage.read "input_tokens") (usage.read "output_tokens") .null

def ReplyOverflows (response : Value) : Prop :=
  CountsOverflow (response.read "usage")

/-- The usage that an event reports, at the start of the message or at its end. -/
def reportOf (event : Value) : Outcome (Option TokenUsage) :=
  if (event.read "type").isText "message_start" then usageOf ((event.read "message").read "usage")
  else if (event.read "type").isText "message_delta" then usageOf (event.read "usage")
  else .ok none

def Overflows (event : Value) : Prop :=
  (event.read "type" = .str "message_start" ∧
      CountsOverflow ((event.read "message").read "usage")) ∨
    (event.read "type" = .str "message_delta" ∧ CountsOverflow (event.read "usage"))

theorem usageOf_eq_range_iff {usage : Value} :
    usageOf usage = misuse .range ↔ CountsOverflow usage := by
  rw [usageOf_eq, TokenUsage.report_eq_range_iff, CountsOverflow]

theorem failsWith_usageOf (usage : Value) :
    FailsWith (fun fault => fault.IsSkipped ∨ fault = .misuse .range ∧ CountsOverflow usage)
      (usageOf usage) := by
  rw [usageOf_eq]
  exact TokenUsage.failsWith_report _ _ _

/-- A report fails for counts that overflow, or as all misshaped data does. -/
theorem failsWith_reportOf (event : Value) :
    FailsWith (fun fault => fault.IsSkipped ∨ fault = .misuse .range ∧ Overflows event)
      (reportOf event) := by
  unfold reportOf
  split
  · rename_i htype
    exact (failsWith_usageOf _).imp fun fault =>
      Or.imp_right (And.imp_right fun h => .inl ⟨Value.eq_str_of_isText htype, h⟩)
  · split
    · rename_i htype
      exact (failsWith_usageOf _).imp fun fault =>
        Or.imp_right (And.imp_right fun h => .inr ⟨Value.eq_str_of_isText htype, h⟩)
    · exact failsWith_ok none

/-- Blocks that cannot be read are skipped. -/
theorem skips_blocksOf (blocks : List Value) : Skips (blocksOf blocks) := by
  induction blocks with
  | nil => exact failsWith_ok _
  | cons block rest ih =>
    simp only [blocksOf]
    split
    · exact ih.bind fun _ _ => failsWith_ok _
    · split
      · split
        · exact (Json.skips_write _).bind fun _ _ => ih.bind fun _ _ => failsWith_ok _
        · exact skips_reply _
      · exact ih

/-- A reply fails as its usage does, or is skipped. -/
theorem failsWith_replyOf {response : Value} (hskip : ∀ fault, fault.IsSkipped → P fault)
    (husage : FailsWith P (usageOf (response.read "usage"))) :
    FailsWith P (replyOf response) := by
  simp only [replyOf]
  split
  · exact (skips_reply _).imp hskip
  · refine ((Value.skips_items _).imp hskip).bind fun blocks _ => ?_
    refine ((skips_blocksOf blocks).imp hskip).bind fun said _ => ?_
    refine ((Value.skips_joinTexts _).imp hskip).bind fun text _ => ?_
    exact husage.bind fun usage _ => failsWith_ok _

theorem skips_blockChunk (event : Value) : Skips (blockChunk event) := by
  unfold blockChunk
  dsimp only
  split
  · exact failsWith_ok _
  · split
    · exact failsWith_ok _
    · exact skips_reply _

theorem skips_deltaChunk (event : Value) : Skips (deltaChunk event) := by
  unfold deltaChunk
  dsimp only
  split
  · split
    · exact skips_reply _
    · exact failsWith_ok _
  · split
    · split <;> exact failsWith_ok _
    · exact failsWith_ok _

/-- An event fails as its report does, or is skipped. -/
theorem failsWith_chunkOf {event : Value} (hskip : ∀ fault, fault.IsSkipped → P fault)
    (hreport : FailsWith P (reportOf event)) : FailsWith P (chunkOf event) := by
  unfold reportOf at hreport
  unfold chunkOf
  dsimp only
  split
  · rename_i htype
    rw [if_pos htype] at hreport
    refine hreport.bind fun usage _ => ?_
    cases usage <;> exact failsWith_ok _
  · rename_i hstart
    rw [if_neg hstart] at hreport
    split
    · exact (skips_blockChunk event).imp hskip
    · split
      · exact (skips_deltaChunk event).imp hskip
      · split
        · rename_i htype
          rw [if_pos htype] at hreport
          refine hreport.bind fun usage _ => ?_
          dsimp only
          split <;> exact failsWith_ok _
        · split <;> exact failsWith_ok _

/-- An event with counts that overflow is out of range. -/
theorem chunkOf_of_overflows {event : Value} (h : Overflows event) :
    chunkOf event = misuse .range := by
  rcases h with ⟨htype, hcounts⟩ | ⟨htype, hcounts⟩
  · simp only [chunkOf, startChunk, htype, usageOf_eq_range_iff.2 hcounts]
    rfl
  · simp only [chunkOf, finalChunk, htype, usageOf_eq_range_iff.2 hcounts]
    rfl

end Anthropic

/-! ## Content generation -/

namespace Google

/-- The counts that a response or event reports have no sum. -/
def Overflows (raw : Value) : Prop :=
  let usage := raw.field ["usage_metadata", "usageMetadata"] .null
  TokenUsage.Overflows (usage.field ["prompt_token_count", "promptTokenCount"] .null)
    (usage.field ["candidates_token_count", "candidatesTokenCount"] .null)
    (usage.field ["total_token_count", "totalTokenCount"] .null)

theorem usageOf_eq_range_iff {raw : Value} : usageOf raw = misuse .range ↔ Overflows raw := by
  rw [usageOf_eq, TokenUsage.report_eq_range_iff, Overflows]

theorem failsWith_usageOf (raw : Value) :
    FailsWith (fun fault => fault.IsSkipped ∨ fault = .misuse .range ∧ Overflows raw)
      (usageOf raw) := by
  rw [usageOf_eq]
  exact TokenUsage.failsWith_report _ _ _

theorem skips_callOf (tag : String) (made : Nat) (call : Value) : Skips (callOf tag made call) := by
  simp only [callOf]
  split
  · exact skips_reply _
  · refine (Value.skips_toFields _).bind fun args _ => (Json.skips_write _).bind fun _ _ => ?_
    split <;> exact failsWith_ok _

/-- Parts that cannot be read are skipped, with whatever number the calls start. -/
theorem skips_partsOf (tag : String) (made : Nat) (parts : List Value) :
    Skips (partsOf tag made parts) := by
  induction parts generalizing made with
  | nil => exact failsWith_ok _
  | cons part rest ih =>
    simp only [partsOf]
    split
    · exact ih made
    · split
      · exact (skips_callOf tag made _).bind fun _ _ => (ih _).bind fun _ _ => failsWith_ok _
      · exact (ih made).bind fun _ _ => failsWith_ok _

theorem skips_candidateOf (tag : String) (candidate : Value) : Skips (candidateOf tag candidate) :=
  (Value.skips_items _).bind fun _ _ => (skips_partsOf tag 0 _).bind fun _ _ =>
    (Value.skips_joinTexts _).bind fun _ _ => failsWith_ok _

/-- A reply fails as its usage does, or is skipped. -/
theorem failsWith_replyOf (tag : String) {response : Value}
    (hskip : ∀ fault, fault.IsSkipped → P fault) (husage : FailsWith P (usageOf response)) :
    FailsWith P (replyOf tag response) := by
  simp only [replyOf]
  split
  · exact (skips_reply _).imp hskip
  · refine ((Value.skips_item _ 0).imp hskip).bind fun candidate _ => ?_
    refine ((skips_candidateOf tag candidate).imp hskip).bind fun said _ => ?_
    exact husage.bind fun usage _ => failsWith_ok _

/-- An event fails as its usage does, or is skipped. -/
theorem failsWith_chunkOf (tag : String) {event : Value}
    (hskip : ∀ fault, fault.IsSkipped → P fault) (husage : FailsWith P (usageOf event)) :
    FailsWith P (chunkOf tag event) := by
  refine husage.bind fun usage _ => ?_
  dsimp only
  split
  · cases usage <;> exact failsWith_ok _
  · refine ((Value.skips_item _ 0).imp hskip).bind fun candidate _ => ?_
    refine ((skips_candidateOf tag candidate).imp hskip).bind fun _ _ => ?_
    split <;> exact failsWith_ok _

/-- An event with counts that overflow is out of range. -/
theorem chunkOf_of_overflows {tag : String} {event : Value} (h : Overflows event) :
    chunkOf tag event = misuse .range := by
  rw [chunkOf, usageOf_eq_range_iff.2 h]
  rfl

end Google

/-! ## All vendors -/

namespace Vendor

def ReplyOverflows (vendor : Vendor) (response : Value) : Prop :=
  match vendor with
  | .openAI _ => OpenAI.Overflows response
  | .anthropic => Anthropic.ReplyOverflows response
  | .google _ => Google.Overflows response

def EventOverflows (vendor : Vendor) (event : Value) : Prop :=
  match vendor with
  | .openAI _ => OpenAI.Overflows event
  | .anthropic => Anthropic.Overflows event
  | .google _ => Google.Overflows event

end Vendor

/-- What is checked comes to a value, to a fault of the reply, or out of range where counts
overflow. -/
theorem Reply.checked_cases {x : Outcome Message} {overflows : Prop} (vendor : Vendor)
    (h : FailsWith (fun fault => fault.IsSkipped ∨ fault = .misuse .range ∧ overflows) x) :
    (∃ m, checked vendor x = .ok m) ∨ (∃ fault, checked vendor x = .error (.invalidReply fault)) ∨
      overflows ∧ checked vendor x = misuse .range := by
  cases x with
  | ok m => exact .inl ⟨m, rfl⟩
  | error fault =>
    rcases h fault rfl with hskipped | ⟨rfl, hoverflows⟩
    · cases hskipped with
      | reply fault => exact .inr (.inl ⟨fault, rfl⟩)
      | @misuse how kind =>
        refine .inr (.inl ⟨.unexpectedShape vendor.label.plain how, ?_⟩)
        cases how <;> first | rfl | exact absurd rfl kind
    · exact .inr (.inr ⟨hoverflows, rfl⟩)

/-- An outcome that is a result, or a fault for which the event is skipped, is a reading. -/
theorem Reading.ofOutcome_cases {x : Outcome (Option Message)} {overflows : Prop}
    (h : FailsWith (fun fault => fault.IsSkipped ∨ fault = .misuse .range ∧ overflows) x) :
    (∃ reading, Reading.ofOutcome x = .ok reading) ∨
      overflows ∧ Reading.ofOutcome x = misuse .range := by
  cases x with
  | ok chunk => cases chunk <;> exact .inl ⟨_, rfl⟩
  | error fault =>
    rcases h fault rfl with hskipped | ⟨rfl, hoverflows⟩
    · cases hskipped with
      | reply fault => exact .inl ⟨_, rfl⟩
      | @misuse how kind =>
        cases how <;> first | exact .inl ⟨_, rfl⟩ | exact absurd rfl kind
    · exact .inr ⟨hoverflows, rfl⟩

namespace Vendor

/-- A response is read, or there is a fault of the reply, or its counts have no sum. -/
theorem readReply_cases (vendor : Vendor) (response : Value) :
    (∃ m, vendor.readReply response = .ok m) ∨
      (∃ fault, vendor.readReply response = .error (.invalidReply fault)) ∨
        vendor.ReplyOverflows response ∧ vendor.readReply response = misuse .range := by
  cases vendor with
  | openAI label =>
    exact Reply.checked_cases _
      (OpenAI.failsWith_replyOf _ (fun _ => .inl) (OpenAI.failsWith_usageOf response))
  | anthropic =>
    exact Reply.checked_cases _
      (Anthropic.failsWith_replyOf (fun _ => .inl) (Anthropic.failsWith_usageOf _))
  | google tag =>
    exact Reply.checked_cases _
      (Google.failsWith_replyOf tag (fun _ => .inl) (Google.failsWith_usageOf response))

/-- An event is read or skipped, or its counts have no sum. -/
theorem readEvent_cases (vendor : Vendor) (event : Value) :
    (∃ reading, vendor.readEvent event = .ok reading) ∨
      vendor.EventOverflows event ∧ vendor.readEvent event = misuse .range := by
  cases vendor with
  | openAI label =>
    exact Reading.ofOutcome_cases
      (OpenAI.failsWith_chunkOf (fun _ => .inl) (OpenAI.failsWith_usageOf event))
  | anthropic =>
    exact Reading.ofOutcome_cases
      (Anthropic.failsWith_chunkOf (fun _ => .inl) (Anthropic.failsWith_reportOf event))
  | google tag =>
    exact Reading.ofOutcome_cases
      (Google.failsWith_chunkOf tag (fun _ => .inl) (Google.failsWith_usageOf event))

/-- Of an event the counts are read first, so it stops the reader exactly if they have no sum. -/
theorem readEvent_eq_range_iff {vendor : Vendor} {event : Value} :
    vendor.readEvent event = misuse .range ↔ vendor.EventOverflows event := by
  constructor
  · intro h
    rcases readEvent_cases vendor event with ⟨reading, hread⟩ | ⟨hoverflows, -⟩
    · cases h.symm.trans hread
    · exact hoverflows
  · intro h
    cases vendor with
    | openAI label =>
      simp only [readEvent, OpenAI.chunkOf_of_overflows h]
      rfl
    | anthropic =>
      simp only [readEvent, Anthropic.chunkOf_of_overflows h]
      rfl
    | google tag =>
      simp only [readEvent, Google.chunkOf_of_overflows h]
      rfl

/-- An event is read or skipped exactly if its counts have a sum. -/
theorem exists_reading_iff {vendor : Vendor} {event : Value} :
    (∃ reading, vendor.readEvent event = .ok reading) ↔ ¬vendor.EventOverflows event := by
  constructor
  · rintro ⟨reading, hread⟩ hoverflows
    cases hread.symm.trans (readEvent_eq_range_iff.2 hoverflows)
  · intro h
    rcases readEvent_cases vendor event with hread | ⟨hoverflows, -⟩
    · exact hread
    · exact absurd hoverflows h

end Vendor

end Parley
