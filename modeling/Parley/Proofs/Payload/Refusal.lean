import Parley.Proofs.Conversation.Validity
import Parley.Proofs.Payload
import Parley.Proofs.Transcript.Addresses
import Parley.Proofs.Transcript.Anthropic
import Parley.Proofs.Turn.OpenAI
import Parley.Proofs.Turn.Reports

/-!
# What vendors turn down

Which conversations of texts have no payload, and that each of them is turned down as such. Besides
what the check says, a vendor turns a conversation down over results that name no call, over
arguments that are no object, or over results that name no function. Arguments or results with an
integer of too many digits are a fault of another kind where their texts are read.

* `Outcome.RefusedIf`: when something is turned down, when it cannot be read, and when it is done;
* `Vendor.Refuses`, `Vendor.Overruns`: what a vendor turns down or cannot read, in terms of the
  messages;
* `Payload.adapt_refused`: which conversations have no payload, and what is reported of them.

`RefusedIf` follows the steps of an operation: the conditions of the whole are those of one step or
those of a later one. So what a vendor turns down is found message by message, and no other fault
can come in on the way.
-/

namespace Parley

/-! ## Turning down -/

namespace Outcome

variable {α β : Type} {P P' Q Q' : Prop}

/-- Something fails exactly if one of two conditions holds, and is done otherwise. It is turned down
over a message only under the first one, and stops at a number only under the second one. -/
def RefusedIf (P Q : Prop) (x : Outcome α) : Prop :=
  (P ∧ ∃ cause, x = .error (.invalidMessage cause)) ∨ (Q ∧ x = misuse .content) ∨
    (¬P ∧ ¬Q ∧ ∃ a, x = .ok a)

theorem refusedIf_ok (hP : ¬P) (hQ : ¬Q) (a : α) : RefusedIf P Q (.ok a : Outcome α) :=
  .inr (.inr ⟨hP, hQ, a, rfl⟩)

theorem refusedIf_invalid (h : P) (cause : MessageFault) (hshown : cause.printable = true) :
    RefusedIf P Q (invalid cause : Outcome α) :=
  .inl ⟨h, cause, congrArg Except.error (MessageFault.fault_of_printable hshown)⟩

theorem refusedIf_misuse (h : Q) : RefusedIf P Q (misuse .content : Outcome α) :=
  .inr (.inl ⟨h, rfl⟩)

namespace RefusedIf

variable {x : Outcome α}

/-- What is refused for one reason is refused for another that amounts to it. -/
theorem congr (h : RefusedIf P Q x) (hP : P ↔ P') (hQ : Q ↔ Q') : RefusedIf P' Q' x := by
  rwa [RefusedIf, ← hP, ← hQ]

/-- Two steps refuse what either of them refuses. -/
theorem bind {f : α → Outcome β} (hx : RefusedIf P Q x)
    (hf : ∀ a, x = .ok a → RefusedIf P' Q' (f a)) : RefusedIf (P ∨ P') (Q ∨ Q') (x >>= f) := by
  rcases hx with ⟨hP, cause, rfl⟩ | ⟨hQ, rfl⟩ | ⟨hP, hQ, a, rfl⟩
  · exact .inl ⟨.inl hP, cause, rfl⟩
  · exact .inr (.inl ⟨.inl hQ, rfl⟩)
  · exact (hf a rfl).congr (or_iff_right hP).symm (or_iff_right hQ).symm

/-- A step that cannot fail refuses nothing more. -/
theorem bind_ok {f : α → Outcome β} (hx : RefusedIf P Q x)
    (hf : ∀ a, x = .ok a → ∃ b, f a = .ok b) : RefusedIf P Q (x >>= f) := by
  have hnever : RefusedIf (P ∨ False) (Q ∨ False) (x >>= f) := by
    refine hx.bind ?_
    intro a ha
    rcases hf a ha with ⟨b, hb⟩
    rw [hb]
    exact refusedIf_ok not_false not_false b
  exact hnever.congr (iff_of_eq (or_false P)) (iff_of_eq (or_false Q))

/-- What is refused for neither reason succeeds. -/
theorem exists_ok_iff (h : RefusedIf P Q x) : (∃ a, x = .ok a) ↔ ¬(P ∨ Q) := by
  rcases h with ⟨hP, cause, rfl⟩ | ⟨hQ, rfl⟩ | ⟨hP, hQ, a, rfl⟩
  · exact iff_of_false (by rintro ⟨a, ⟨⟩⟩) (not_not_intro (.inl hP))
  · exact iff_of_false (by rintro ⟨a, ⟨⟩⟩) (not_not_intro (.inr hQ))
  · exact iff_of_true ⟨a, rfl⟩ (not_or.2 ⟨hP, hQ⟩)

/-- A failure has one of the two reasons. -/
theorem exists_error_iff (h : RefusedIf P Q x) : (∃ fault, x = .error fault) ↔ P ∨ Q := by
  rcases h with ⟨hP, cause, rfl⟩ | ⟨hQ, rfl⟩ | ⟨hP, hQ, a, rfl⟩
  · exact iff_of_true ⟨_, rfl⟩ (.inl hP)
  · exact iff_of_true ⟨_, rfl⟩ (.inr hQ)
  · exact iff_of_false (by rintro ⟨fault, ⟨⟩⟩) (not_or.2 ⟨hP, hQ⟩)

/-- It is a fault of the message, or a number is too long. -/
theorem cases_fault {fault : Fault} (h : RefusedIf P Q x) (hx : x = .error fault) :
    (∃ cause, fault = .invalidMessage cause) ∨ (Q ∧ fault = .misuse .content) := by
  rcases h with ⟨-, cause, rfl⟩ | ⟨hQ, rfl⟩ | ⟨-, -, a, rfl⟩
  · exact .inl ⟨cause, (Except.error.inj hx).symm⟩
  · exact .inr ⟨hQ, (Except.error.inj hx).symm⟩
  · cases hx

/-- Where a number is too long and nothing else is wrong, that is what is reported. -/
theorem eq_misuse (h : RefusedIf P Q x) (hP : ¬P) (hQ : Q) : x = misuse .content := by
  rcases h with ⟨hrefused, -⟩ | ⟨-, hx⟩ | ⟨-, hnone, -⟩
  · exact absurd hrefused hP
  · exact hx
  · exact absurd hQ hnone

end RefusedIf

/-- A list is refused for any of its members. -/
theorem refusedIf_mapM {f : α → Outcome β} {refused overlong : α → Prop} {xs : List α}
    (h : ∀ x ∈ xs, RefusedIf (refused x) (overlong x) (f x)) :
    RefusedIf (∃ x ∈ xs, refused x) (∃ x ∈ xs, overlong x) (xs.mapM f) := by
  induction xs with
  | nil => exact refusedIf_ok (by simp) (by simp) []
  | cons x rest ih =>
    rw [List.mapM_cons]
    have hrest : RefusedIf (∃ y ∈ rest, refused y) (∃ y ∈ rest, overlong y) (rest.mapM f) :=
      ih fun y hy => h y (List.mem_cons_of_mem x hy)
    have hall := (h x List.mem_cons_self).bind fun y _ => hrest.bind_ok fun ys _ => ⟨y :: ys, rfl⟩
    exact hall.congr (by simp) (by simp)

end Outcome

open Outcome

/-! ## Calls and results -/

namespace TextCall

/-- Arguments that are neither blank nor the text of an object. -/
structure Undecodable (call : TextCall) : Prop where
  filled : Text.strip call.arguments.toList ≠ []
  other : ∀ fields, Json.read call.arguments ≠ .ok (.dict fields)
  short : Json.isOverlong call.arguments = false

/-- Arguments that are not blank, and are not read because of an integer with too many digits. -/
structure Overlong (call : TextCall) : Prop where
  filled : Text.strip call.arguments.toList ≠ []
  long : Json.isOverlong call.arguments = true

/-- A number that is too long makes overlong arguments. -/
theorem overlong_firstLong (id name : String) :
    Overlong ⟨id, name, String.ofList (Number.digits Json.firstLong)⟩ where
  filled := by
    obtain ⟨c, ds, hdigits, hdigit⟩ := Json.exists_digits Json.firstLong
    rw [String.toList_ofList, hdigits, ne_eq, Text.strip_eq_nil_iff, Text.allBlank, List.all_cons,
      Text.isBlank_of_isDigit hdigit]
    exact Bool.false_ne_true
  long := Json.isOverlong_digits

/-- Arguments are refused if they are no object, or if a number in them is too long. -/
theorem refusedIf_argumentFields (call : TextCall) :
    RefusedIf call.Undecodable call.Overlong call.toCall.argumentFields := by
  simp only [toCall, ToolCall.argumentFields, decodeArguments]
  by_cases hblank : Text.strip call.arguments.toList = []
  · rw [if_pos hblank]
    exact refusedIf_ok (fun hnot => hnot.filled hblank) (fun hlong => hlong.filled hblank) []
  · have hlabel : ((Value.str call.id).orElse (.str call.name)).printable = true := by
      cases h : (Value.str call.id).truthy <;> simp [Value.orElse, h]
    rw [if_neg hblank]
    -- no other text than that of an object decodes to one
    cases hread : Json.read call.arguments with
    | error e =>
      dsimp only
      by_cases hlong : e.isTooLong = true
      · rw [if_pos hlong]
        exact refusedIf_misuse ⟨hblank, by simp [Json.isOverlong, hread, hlong]⟩
      · rw [if_neg hlong]
        exact refusedIf_invalid
          ⟨hblank, by simp [hread], by simp [Json.isOverlong, hread, hlong]⟩ _ hlabel
    | ok v =>
      have hshort := Json.isOverlong_of_read hread
      have hnever : ¬call.Overlong := by
        intro hlong
        rw [hlong.long] at hshort
        cases hshort
      cases v with
      | dict fields => exact refusedIf_ok (fun hnot => hnot.other fields hread) hnever fields
      | _ => exact refusedIf_invalid ⟨hblank, by simp [hread], hshort⟩ _ hlabel

end TextCall

namespace Message

/-- A message makes a call whose arguments cannot be decoded. -/
def MakesUndecodable (m : Message) : Prop :=
  ∃ call : TextCall, call.toValue ∈ m.toolCalls ∧ call.Undecodable

/-- A message makes a call whose arguments cannot be read. -/
def MakesOverlong (m : Message) : Prop :=
  ∃ call : TextCall, call.toValue ∈ m.toolCalls ∧ call.Overlong

/-- A message that is to answer a call and names none: its id is null or blank. -/
def NamesNoCall (m : Message) : Prop :=
  m.toolCallId = .null ∨ ∃ id, m.toolCallId = .str id ∧ Text.strip id.toList = []

/-- A message that is to answer a call and names no function, behind the calls made so far: it
brings no name, and its id is null, empty, or one for which the last call with just that id does not
exist or has an empty name. -/
structure NamesNoFunction (made : List Value) (m : Message) : Prop where
  unnamed : m.name = .null ∨ m.name = .str ""
  unfound : m.toolCallId = .null ∨ m.toolCallId = .str "" ∨
    ∃ id, m.toolCallId = .str id ∧
      ((¬∃ call, LastCall id made call) ∨ ∃ call, LastCall id made call ∧ call.name = "")

/-- A result names no call if there is nothing but blanks in its id. -/
theorem WellTyped.namesNoCall_iff {m : Message} (h : m.WellTyped) :
    m.NamesNoCall ↔ m.answered = "" := by
  rcases h.toolCallId with hnull | ⟨id, hid⟩
  · have hblank : m.answered = "" := by
      rw [answered, hnull]
      rfl
    exact iff_of_true (.inl hnull) hblank
  · simp [NamesNoCall, answered, hid, Value.textOrEmpty, Value.text?]

/-- A message without a name of its own names no function if the last call with its id has none. -/
theorem WellTyped.namesNoFunction_iff {m : Message} {made : List Value} (h : m.WellTyped)
    (hunnamed : ¬m.name.truthy = true) (hid : m.toolCallId.truthy = true) :
    m.NamesNoFunction made ↔
      ∀ call, LastCall m.toolCallId.textOrEmpty made call → call.name = "" := by
  constructor
  · intro hnot call hlast
    rcases hnot.unfound with hnull | hempty | ⟨id, hsame, hnone⟩
    · exact absurd hid (h.toolCallId.not_truthy_iff.2 (.inl hnull))
    · exact absurd hid (h.toolCallId.not_truthy_iff.2 (.inr hempty))
    · rw [hsame] at hlast
      rcases hnone with hnone | ⟨other, hother, hnameless⟩
      · exact absurd ⟨call, hlast⟩ hnone
      · rw [Google.name_eq_of_lastCall hlast hother, hnameless]
  · intro hnameless
    have hstr := h.toolCallId.eq_str_of_truthy hid
    refine ⟨h.name.not_truthy_iff.1 hunnamed, .inr (.inr ⟨_, hstr, ?_⟩)⟩
    by_cases hlast : ∃ call, LastCall m.toolCallId.textOrEmpty made call
    · rcases hlast with ⟨call, hlast⟩
      exact .inr ⟨call, hlast, hnameless call hlast⟩
    · exact .inl hlast

/-- A result that names no call is refused. -/
theorem WellTyped.refusedIf_requireAnsweredId {m : Message} (h : m.WellTyped) :
    RefusedIf m.NamesNoCall False m.requireAnsweredId := by
  rw [h.namesNoCall_iff, requireAnsweredId, Outcome.bind_of_ok h.answeredId]
  split
  · rename_i hnone
    exact refusedIf_invalid hnone _ rfl
  · rename_i hsome
    exact refusedIf_ok hsome not_false _

/-- Calls are made into parts of an entry by decoding their arguments. -/
theorem WellTyped.refusedIf_mapM {β : Type} {m : Message} (h : m.WellTyped) {f : Value → Outcome β}
    {make : TextCall → Fields → β}
    (hf : ∀ call : TextCall, f call.toValue = do return make call (← call.toCall.argumentFields)) :
    RefusedIf m.MakesUndecodable m.MakesOverlong (m.toolCalls.mapM f) := by
  rcases h.toolCalls with ⟨calls, hcalls⟩
  have heach : ∀ v ∈ m.toolCalls,
      RefusedIf (∃ call : TextCall, call.toValue = v ∧ call.Undecodable)
        (∃ call : TextCall, call.toValue = v ∧ call.Overlong) (f v) := by
    intro v hv
    rw [hcalls] at hv
    rcases List.mem_map.1 hv with ⟨call, -, rfl⟩
    rw [hf]
    have hdecoded := call.refusedIf_argumentFields.bind_ok fun fields _ => ⟨make call fields, rfl⟩
    exact hdecoded.congr (by simp [TextCall.toValue_injective.eq_iff])
      (by simp [TextCall.toValue_injective.eq_iff])
  have hmade (p : TextCall → Prop) :
      (∃ v ∈ m.toolCalls, ∃ call : TextCall, call.toValue = v ∧ p call) ↔
      ∃ call : TextCall, call.toValue ∈ m.toolCalls ∧ p call := by
    constructor
    · rintro ⟨-, hmem, call, rfl, hcall⟩
      exact ⟨call, hmem, hcall⟩
    · rintro ⟨call, hmem, hcall⟩
      exact ⟨call.toValue, hmem, call, rfl, hcall⟩
  exact (Outcome.refusedIf_mapM heach).congr (hmade _) (hmade _)

end Message

/-! ## Entries -/

namespace OpenAI

variable {ms : List Message}

/-- Of the first vendor's turns only results are refused. -/
theorem refusedIf_ofMessage {m : Message} (hm : m.WellTyped) (hrole : m.IsTurn) :
    RefusedIf (m.hasRole "tool" = true ∧ m.NamesNoCall) False (Turn.ofMessage m) := by
  rcases hrole with huser | hassistant | htool
  · rw [ofMessage_user huser]
    exact refusedIf_ok (by simp [Message.not_hasRole huser]) not_false _
  · have hother : ¬(m.hasRole "tool" = true ∧ m.NamesNoCall) := by
      simp [Message.not_hasRole hassistant]
    rcases hm.toolCalls with ⟨calls, hcalls⟩
    cases calls with
    | nil =>
      rw [ofMessage_plain hassistant hcalls]
      exact refusedIf_ok hother not_false _
    | cons call rest =>
      rw [ofMessage_calling hassistant hcalls (by simp)]
      exact refusedIf_ok hother not_false _
  · -- nothing but the id can be missing
    rw [ofMessage_result htool, and_iff_right htool]
    exact hm.refusedIf_requireAnsweredId.bind_ok fun id _ => ⟨_, rfl⟩

theorem refusedIf_turns (htyped : ∀ m ∈ ms, m.WellTyped) (hroles : ∀ m ∈ ms, m.IsTurn)
    (system : Value) :
    RefusedIf (∃ m ∈ ms, m.hasRole "tool" = true ∧ m.NamesNoCall) False (turns ms system) := by
  have hall := Outcome.refusedIf_mapM fun m hm => refusedIf_ofMessage (htyped m hm) (hroles m hm)
  exact (hall.congr Iff.rfl (by simp)).bind_ok fun _ _ => ⟨_, rfl⟩

end OpenAI

namespace Anthropic

def Refused (m : Message) : Prop :=
  (m.hasRole "tool" = true ∧ m.NamesNoCall) ∨
    (m.hasRole "assistant" = true ∧ m.MakesUndecodable)

def Overruns (m : Message) : Prop :=
  m.hasRole "assistant" = true ∧ m.MakesOverlong

/-- The second vendor refuses results, and calls whose arguments are no objects. -/
theorem refusedIf_ofMessage {m : Message} (hm : m.WellTyped) (hrole : m.IsTurn) :
    RefusedIf (Refused m) (Overruns m) (Turn.ofMessage m) := by
  rcases hrole with huser | hassistant | htool
  · rw [ofMessage_user huser]
    exact refusedIf_ok (by simp [Refused, Message.not_hasRole huser])
      (by simp [Overruns, Message.not_hasRole huser]) _
  · have hrefused : m.MakesUndecodable ↔ Refused m := by
      simp [Refused, hassistant, Message.not_hasRole hassistant]
    have hoverruns : m.MakesOverlong ↔ Overruns m := by simp [Overruns, hassistant]
    by_cases hnone : m.toolCalls = []
    · rw [ofMessage_plain hassistant hnone]
      exact refusedIf_ok (by simp [← hrefused, Message.MakesUndecodable, hnone])
        (by simp [← hoverruns, Message.MakesOverlong, hnone]) _
    · rw [ofMessage_calls hassistant hnone, ← hrefused, ← hoverruns]
      exact (hm.refusedIf_mapM ToolUse.ofValue_toValue).bind_ok fun uses _ => ⟨_, rfl⟩
  · rw [ofMessage_result htool]
    have hrefused : m.NamesNoCall ↔ Refused m := by
      simp [Refused, htool, Message.not_hasRole htool]
    have hoverruns : False ↔ Overruns m := by simp [Overruns, Message.not_hasRole htool]
    rw [← hrefused, ← hoverruns]
    exact hm.refusedIf_requireAnsweredId.bind_ok fun id _ => ⟨_, rfl⟩

/-- Turns are refused one by one, whatever stands before them. -/
theorem refusedIf_turnsAfter {ms : List Message} {before : List Turn}
    (hbefore : ∀ t ∈ before, t.Plain) (htyped : ∀ m ∈ ms, m.WellTyped)
    (hroles : ∀ m ∈ ms, m.IsTurn) :
    RefusedIf (∃ m ∈ ms, Refused m) (∃ m ∈ ms, Overruns m) (turnsAfter before ms) := by
  induction ms generalizing before with
  | nil => exact refusedIf_ok (by simp) (by simp) before
  | cons m rest ih =>
    have hm : m.WellTyped := htyped m List.mem_cons_self
    have hrole : m.IsTurn := hroles m List.mem_cons_self
    -- what is before an entry is no list of blocks, so the entry can be joined to it or added
    have hlater (turn : Turn) (hturn : Turn.ofMessage m = .ok turn) :
        RefusedIf (∃ n ∈ rest, Refused n) (∃ n ∈ rest, Overruns n)
          (do turnsAfter (← push before turn) rest) := by
      have hplain : turn.Plain := (tells_ofMessage hm hrole hturn).2
      rcases exists_push hbefore hplain with ⟨next, hnext⟩
      rw [Outcome.bind_of_ok hnext]
      apply ih (push_plain hbefore hplain hnext)
      · exact fun n hn => htyped n (List.mem_cons_of_mem m hn)
      · exact fun n hn => hroles n (List.mem_cons_of_mem m hn)
    exact ((refusedIf_ofMessage hm hrole).bind hlater).congr (by simp) (by simp)

theorem refusedIf_turns {ms : List Message} (htyped : ∀ m ∈ ms, m.WellTyped)
    (hroles : ∀ m ∈ ms, m.IsTurn) :
    RefusedIf (∃ m ∈ ms, Refused m) (∃ m ∈ ms, Overruns m) (turns ms) :=
  (refusedIf_turnsAfter (by simp) htyped hroles).bind_ok fun after _ => ⟨after.reverse, rfl⟩

end Anthropic

namespace Google

variable {seen : List Message} {m : Message}

/-- A message of which no entry can be made, behind the messages before it. -/
def Refused (seen : List Message) (m : Message) : Prop :=
  (m.hasRole "assistant" = true ∧ m.MakesUndecodable) ∨
    (m.hasRole "tool" = true ∧ m.NamesNoFunction (callsBefore m seen))

/-- A message whose calls or whose result cannot be read. -/
def Overruns (m : Message) : Prop :=
  (m.hasRole "assistant" = true ∧ m.MakesOverlong) ∨
    (m.hasRole "tool" = true ∧ Json.isOverlong m.text = true)

/-- A message that answers a call is given a name, or turned down because it names no function. -/
theorem refusedIf_answeredName (hseen : ∀ n ∈ seen, n.WellTyped) (hm : m.WellTyped) :
    RefusedIf (m.NamesNoFunction (callsBefore m seen)) False (answeredName seen m) := by
  have hfront : ∀ n ∈ beforeFirst seen m, n.WellTyped :=
    fun n hn => hseen n (mem_of_mem_beforeFirst hn)
  have hshown : m.toolCallId.printable = true := hm.toolCallId.printable
  by_cases hown : m.name.truthy = true
  · rw [answeredName_of_own seen hown]
    refine refusedIf_ok ?_ not_false m.name
    intro hnot
    exact hm.name.not_truthy_iff.2 hnot.unnamed hown
  by_cases hid : m.toolCallId.truthy = true
  · refine RefusedIf.congr ?_ (hm.namesNoFunction_iff hown hid).symm Iff.rfl
    have hstr : m.toolCallId = .str m.toolCallId.textOrEmpty :=
      hm.toolCallId.eq_str_of_truthy hid
    rw [callsBefore_eq_flatMap]
    -- the last call with the id decides, if there is one
    rcases nameIn_cases hfront m.toolCallId.textOrEmpty with ⟨call, hlast, hfound⟩ | ⟨hnone, hfound⟩
    · rw [← hstr] at hfound
      by_cases hname : call.name = ""
      · rw [answeredName_of_unfound hown (.inr ⟨_, hfound, by simp [hname]⟩)]
        refine refusedIf_invalid ?_ _ hshown
        intro other hother
        rw [name_eq_of_lastCall hother hlast, hname]
      · rw [answeredName_of_found hown hid hfound (Value.truthy_str.2 hname)]
        exact refusedIf_ok (fun hnot => hname (hnot call hlast)) not_false _
    · rw [← hstr] at hfound
      rw [answeredName_of_unfound hown (.inr ⟨_, hfound, by simp [Value.truthy]⟩)]
      exact refusedIf_invalid (fun call hlast => absurd ⟨call, hlast⟩ hnone) _ hshown
  · rw [answeredName_of_unfound hown (.inl hid)]
    refine refusedIf_invalid ⟨hm.name.not_truthy_iff.1 hown, ?_⟩ _ hshown
    rcases hm.toolCallId.not_truthy_iff.1 hid with hnull | hempty
    · exact .inl hnull
    · exact .inr (.inl hempty)

/-- A result is sent unless its text cannot be read. -/
theorem refusedIf_responseFields (hm : m.WellTyped) :
    RefusedIf False (Json.isOverlong m.text = true) (responseFields m.content) := by
  rw [responseFields_typed hm.content]
  split
  · rename_i hlong
    exact refusedIf_misuse hlong
  · rename_i hread
    exact refusedIf_ok not_false hread _

/-- The third vendor refuses calls whose arguments are no objects, and results that name no
function. -/
theorem refusedIf_ofMessage (hseen : ∀ n ∈ seen, n.WellTyped) (hm : m.WellTyped)
    (hrole : m.IsTurn) : RefusedIf (Refused seen m) (Overruns m) (Turn.ofMessage seen m) := by
  rcases hrole with huser | hassistant | htool
  · rw [ofMessage_user seen huser]
    exact refusedIf_ok (by simp [Refused, Message.not_hasRole huser])
      (by simp [Overruns, Message.not_hasRole huser]) _
  · have htool : m.hasRole "tool" = false := Message.not_hasRole hassistant (by decide)
    have hrefused : m.MakesUndecodable ↔ Refused seen m := by simp [Refused, hassistant, htool]
    have hoverruns : m.MakesOverlong ↔ Overruns m := by simp [Overruns, hassistant, htool]
    rw [← hrefused, ← hoverruns]
    by_cases hnone : m.toolCalls = []
    · rw [ofMessage_plain seen hassistant hnone]
      exact refusedIf_ok (by simp [Message.MakesUndecodable, hnone])
        (by simp [Message.MakesOverlong, hnone]) _
    · rw [ofMessage_calls seen hassistant hnone]
      exact (hm.refusedIf_mapM FunctionCall.ofValue_toValue).bind_ok fun made _ => ⟨_, rfl⟩
  · have hassistant : m.hasRole "assistant" = false := Message.not_hasRole htool (by decide)
    rw [ofMessage_result seen htool]
    -- once there is a name, any text that can be read can be sent as a result
    have hresult := (refusedIf_answeredName hseen hm).bind fun name _ =>
      (refusedIf_responseFields hm).bind_ok
        (f := fun fields => (pure (.responses [⟨name, fields⟩]) : Outcome Turn)) fun _ _ => ⟨_, rfl⟩
    exact hresult.congr (by simp [Refused, htool, hassistant])
      (by simp [Overruns, htool, hassistant])

/-- Turns are refused one by one. What a result answers depends on the messages before it. -/
theorem refusedIf_turnsAfter {ms : List Message} (before : List Turn)
    (hseen : ∀ n ∈ seen, n.WellTyped) (htyped : ∀ m ∈ ms, m.WellTyped)
    (hroles : ∀ m ∈ ms, m.IsTurn) :
    RefusedIf ((∃ m ∈ ms, m.hasRole "assistant" = true ∧ m.MakesUndecodable) ∨
        ∃ asked ∈ answeringFrom seen ms, asked.2.NamesNoFunction asked.1)
      (∃ m ∈ ms, Overruns m) (turnsAfter seen before ms) := by
  -- what is refused of a message depends on the messages before it, not on the entries
  induction ms generalizing seen before with
  | nil => exact refusedIf_ok (by simp [answeringFrom]) (by simp) before
  | cons m rest ih =>
    have hm : m.WellTyped := htyped m List.mem_cons_self
    have hseen' : ∀ n ∈ seen ++ [m], n.WellTyped :=
      List.forall_mem_append.2 ⟨hseen, by simpa using hm⟩
    have hlater (turn : Turn) := ih (push before turn) hseen'
      (fun n hn => htyped n (List.mem_cons_of_mem m hn))
      fun n hn => hroles n (List.mem_cons_of_mem m hn)
    have hfirst := refusedIf_ofMessage hseen hm (hroles m List.mem_cons_self)
    refine (hfirst.bind fun turn _ => hlater turn).congr ?_ (by simp)
    rw [exists_mem_answeringFrom_cons, Refused, or_or_or_comm]
    simp only [List.mem_cons, exists_eq_or_imp]

theorem refusedIf_turns {ms : List Message} (htyped : ∀ m ∈ ms, m.WellTyped)
    (hroles : ∀ m ∈ ms, m.IsTurn) :
    RefusedIf ((∃ m ∈ ms, m.hasRole "assistant" = true ∧ m.MakesUndecodable) ∨
        ∃ asked ∈ answeringFrom [] ms, asked.2.NamesNoFunction asked.1)
      (∃ m ∈ ms, Overruns m) (turns ms) := by
  have hnone : ∀ n ∈ ([] : List Message), n.WellTyped := by simp
  have hafter := refusedIf_turnsAfter [] hnone htyped hroles
  exact hafter.bind_ok fun after _ => ⟨after.reverse, rfl⟩

end Google

/-! ## Conversations -/

/-- What a vendor turns down of messages that pass the check: a result that names no call, or the
arguments of a call that are no object, or, of the vendor that knows no ids, a result that names no
function. -/
def Vendor.Refuses (vendor : Vendor) (ms : List Message) : Prop :=
  match vendor with
  | .openAI _ => ∃ m ∈ ms, m.hasRole "tool" = true ∧ m.NamesNoCall
  | .anthropic => ∃ m ∈ ms, Anthropic.Refused m
  | .google _ => (∃ m ∈ ms, m.hasRole "assistant" = true ∧ m.MakesUndecodable) ∨
      ∃ asked ∈ answeringFrom [] (Conversation.turns ms), asked.2.NamesNoFunction asked.1

/-- What a vendor cannot read of messages that pass the check: arguments that it takes as an object,
or the text of a result that it takes as one. -/
def Vendor.Overruns (vendor : Vendor) (ms : List Message) : Prop :=
  match vendor with
  | .openAI _ => False
  | .anthropic => ∃ m ∈ ms, Anthropic.Overruns m
  | .google _ => ∃ m ∈ ms, Google.Overruns m

/-- What no system message can be is found among the turns if it is found at all. -/
theorem Conversation.exists_mem_turns_iff {p : Message → Prop} {ms : List Message}
    (h : ∀ m, p m → m.hasRole "system" = false) : (∃ m ∈ turns ms, p m) ↔ ∃ m ∈ ms, p m := by
  refine exists_congr fun m => ?_
  rw [turns, List.mem_filter, and_assoc]
  refine and_congr_right fun _ => and_iff_right_of_imp ?_
  intro hp
  simpa using h m hp

namespace Payload

variable {raw tools : Value} {ms : List Message} (vendor : Vendor) (systemPrompt : Value)

/-- A vendor turns down the turns of a conversation for what it turns down the whole conversation
for. -/
theorem refuses_turns : vendor.Refuses (Conversation.turns ms) ↔ vendor.Refuses ms := by
  have hassistant (m : Message) (h : m.hasRole "assistant" = true ∧ m.MakesUndecodable) :
      m.hasRole "system" = false :=
    Message.not_hasRole h.1 (by decide)
  have htool (m : Message) (h : m.hasRole "tool" = true ∧ m.NamesNoCall) :
      m.hasRole "system" = false :=
    Message.not_hasRole h.1 (by decide)
  cases vendor with
  | openAI label => exact Conversation.exists_mem_turns_iff htool
  | anthropic =>
    refine Conversation.exists_mem_turns_iff ?_
    rintro m (hresult | hcalls)
    · exact htool m hresult
    · exact hassistant m hcalls
  | google tag =>
    rw [Vendor.Refuses, Vendor.Refuses, Conversation.exists_mem_turns_iff hassistant,
      Conversation.turns_turns]

/-- What a vendor cannot read stands in a turn. -/
theorem overruns_turns : vendor.Overruns (Conversation.turns ms) ↔ vendor.Overruns ms := by
  cases vendor with
  | openAI label => exact Iff.rfl
  | anthropic =>
    exact Conversation.exists_mem_turns_iff fun m h => Message.not_hasRole h.1 (by decide)
  | google tag =>
    refine Conversation.exists_mem_turns_iff ?_
    rintro m (hcalls | hresult)
    · exact Message.not_hasRole hcalls.1 (by decide)
    · exact Message.not_hasRole hresult.1 (by decide)

/-- The entries of a conversation are refused for what its vendor turns down. -/
theorem refusedIf_entries (htyped : ∀ m ∈ ms, m.WellTyped) (hroles : ∀ m ∈ ms, m.IsTurn)
    (system : Value) :
    RefusedIf (vendor.Refuses ms) (vendor.Overruns ms) (Payload.entries vendor ms system) := by
  cases vendor with
  | openAI label => exact (OpenAI.refusedIf_turns htyped hroles system).bind_ok fun _ _ => ⟨_, rfl⟩
  | anthropic => exact (Anthropic.refusedIf_turns htyped hroles).bind_ok fun _ _ => ⟨_, rfl⟩
  | google tag =>
    have hturns : Conversation.turns ms = ms :=
      Conversation.turns_of_none fun m hm => (hroles m hm).not_system
    rw [Vendor.Refuses, hturns]
    exact (Google.refusedIf_turns htyped hroles).bind_ok fun _ _ => ⟨_, rfl⟩

theorem refusedIf_ofMessages (htyped : ∀ m ∈ ms, m.WellTyped)
    (hcheck : Conversation.check ms = .ok ()) (hsome : Conversation.turns ms ≠ [])
    (htools : tools.truthy = false) :
    RefusedIf (vendor.Refuses ms) (vendor.Overruns ms)
      (ofMessages vendor ms systemPrompt tools) := by
  have hroles : ∀ m ∈ Conversation.turns ms, m.IsTurn :=
    Conversation.isTurn_of_mem_turns (Conversation.ofValue_of_check hcheck)
  have hturns : ∀ m ∈ Conversation.turns ms, m.WellTyped :=
    fun m hm => htyped m (List.mem_of_mem_filter hm)
  have hnone : toolsOf vendor tools = .ok .null := by simp [toolsOf, htools]
  rw [ofMessages, Outcome.bind_of_ok (Conversation.systemPrompt_of_typed htyped systemPrompt),
    if_neg (by simpa using hsome), ← refuses_turns vendor, ← overruns_turns vendor]
  refine (refusedIf_entries vendor hturns hroles _).bind_ok ?_
  intro entries _
  rw [Outcome.bind_of_ok hnone]
  exact ⟨_, rfl⟩

/-- Either the check reports something, or there is no turn, or it is up to the vendor. -/
theorem adapt_cases (hgives : Conversation.Gives raw ms) (htyped : ∀ m ∈ ms, m.WellTyped)
    (htools : tools.truthy = false) :
    (∃ fault, Conversation.check ms = .error fault ∧
      adapt vendor raw systemPrompt tools = .error fault) ∨
    (Conversation.check ms = .ok () ∧ Conversation.turns ms = [] ∧
      adapt vendor raw systemPrompt tools = .error .onlySystemMessages) ∨
    (Conversation.check ms = .ok () ∧ Conversation.turns ms ≠ [] ∧
      RefusedIf (vendor.Refuses ms) (vendor.Overruns ms)
        (adapt vendor raw systemPrompt tools)) := by
  rw [adapt_of_gives hgives]
  cases hcheck : Conversation.check ms with
  | error fault => exact .inl ⟨fault, rfl, rfl⟩
  | ok passed =>
    rw [Outcome.bind_of_ok rfl]
    by_cases hnone : Conversation.turns ms = []
    · refine .inr (.inl ⟨rfl, hnone, ?_⟩)
      rw [ofMessages, Outcome.bind_of_ok (Conversation.systemPrompt_of_typed htyped systemPrompt),
        if_pos (by simp [hnone])]
    · have hrefused := refusedIf_ofMessages vendor systemPrompt htyped hcheck hnone htools
      exact .inr (.inr ⟨rfl, hnone, hrefused⟩)

/-- What is reported of a conversation that has no payload: what is wrong with one of its messages,
or that there is no turn, or neither, over a role that cannot be shown or over an integer with too
many digits. -/
inductive Reported (vendor : Vendor) (ms : List Message) : Fault → Prop where
  | invalid (cause : MessageFault) : Reported vendor ms (.invalidMessage cause)
  | empty (none : ms = []) : Reported vendor ms .noMessages
  | turnless (none : ∀ m ∈ ms, m.hasRole "system" = true) : Reported vendor ms .onlySystemMessages
  | unshown {m : Message} (mem : m ∈ ms) (role : m.role.printable = false) :
      Reported vendor ms (.misuse .content)
  | overrun (overruns : vendor.Overruns ms) : Reported vendor ms (.misuse .content)

/-- What the check reports is wrong with a message, or it is that there is none. -/
theorem reported_of_check {fault : Fault} (htyped : ∀ m ∈ ms, m.WellTyped)
    (h : Conversation.check ms = .error fault) : Reported vendor ms fault := by
  rcases (Conversation.check_eq_error_iff htyped).1 h with ⟨hnone, rfl⟩ | ⟨cause, hbreak, rfl⟩
  · exact .empty hnone
  · rcases hbreak with ⟨before, m, after, rfl, -, hbreaks⟩
    cases hrole : m.role.printable with
    | true =>
      rw [hbreaks.fault_eq hrole]
      exact .invalid cause
    | false =>
      rw [MessageFault.fault]
      split
      · exact .invalid cause
      · exact .unshown (by simp) hrole

/-- A conversation of texts has no payload exactly if it fails the check, holds no turn, or holds
what the vendor turns down or cannot read. What is reported of it says which; that there is no turn
is reported of every empty conversation and of every one that passes the check and has none, and
what the vendor cannot read, of every one that there is nothing else to report of. -/
theorem adapt_refused (hgives : Conversation.Gives raw ms) (htyped : ∀ m ∈ ms, m.WellTyped)
    (htools : tools.truthy = false) :
    ((∃ fault, adapt vendor raw systemPrompt tools = .error fault) ↔
      (∃ fault, Conversation.ofValue raw = .error fault) ∨
        (∀ m ∈ ms, m.hasRole "system" = true) ∨ vendor.Refuses ms ∨ vendor.Overruns ms) ∧
    (∀ fault, adapt vendor raw systemPrompt tools = .error fault → Reported vendor ms fault) ∧
    (ms = [] → adapt vendor raw systemPrompt tools = .error .noMessages) ∧
    ((∃ found, Conversation.ofValue raw = .ok found) →
      ((∀ m ∈ ms, m.hasRole "system" = true) →
        adapt vendor raw systemPrompt tools = .error .onlySystemMessages) ∧
      (¬(∀ m ∈ ms, m.hasRole "system" = true) → ¬vendor.Refuses ms → vendor.Overruns ms →
        adapt vendor raw systemPrompt tools = misuse .content)) := by
  -- all of it in terms of the check, the turns and the vendor
  simp only [Conversation.ofValue_eq_error_iff hgives, Conversation.ofValue_eq_ok_iff hgives,
    ← Conversation.turns_eq_nil_iff]
  have hempty (hnone : ms = []) : Conversation.check ms = .error .noMessages := by
    rw [hnone]
    rfl
  have hpassed (hcheck : Conversation.check ms = .ok ()) : ms ≠ [] := by
    intro hnone
    rw [hempty hnone] at hcheck
    cases hcheck
  rcases adapt_cases vendor systemPrompt hgives htyped htools with
    ⟨fault, hcheck, hadapt⟩ | ⟨hcheck, hnone, hadapt⟩ | ⟨hcheck, hsome, hrefused⟩
  -- the check reports something
  · refine ⟨iff_of_true ⟨fault, hadapt⟩ (.inl ⟨fault, hcheck⟩), ?_, ?_, ?_⟩
    · intro other hother
      rw [hadapt] at hother
      cases hother
      exact reported_of_check vendor htyped hcheck
    · intro hnone
      rw [hempty hnone] at hcheck
      cases hcheck
      exact hadapt
    · rintro ⟨found, hok, -⟩
      rw [hok] at hcheck
      cases hcheck
  -- the check passes, and there is no turn
  · refine ⟨iff_of_true ⟨_, hadapt⟩ (.inr (.inl hnone)), ?_, ?_, ?_⟩
    · intro other hother
      rw [hadapt] at hother
      cases hother
      exact .turnless (Conversation.turns_eq_nil_iff.1 hnone)
    · exact fun hnone => absurd hnone (hpassed hcheck)
    · exact fun _ => ⟨fun _ => hadapt, fun hsome => absurd hnone hsome⟩
  -- there are turns, and it is up to the vendor
  · refine ⟨?_, ?_, ?_, ?_⟩
    · rw [hrefused.exists_error_iff, hcheck]
      simp [hsome]
    · intro other hother
      rcases hrefused.cases_fault hother with ⟨cause, rfl⟩ | ⟨hlong, rfl⟩
      · exact .invalid cause
      · exact .overrun hlong
    · exact fun hnone => absurd hnone (hpassed hcheck)
    · exact fun _ => ⟨fun hnone => absurd hnone hsome, fun _ => hrefused.eq_misuse⟩

def surveyMessages : List Message :=
  [{ role := .str "user", content := .str "Any votes?" },
    { role := .str "assistant", toolCalls := [TextCall.toValue ⟨"c1", "survey", "[1]"⟩] }]

theorem wellTyped_surveyMessages : ∀ m ∈ surveyMessages, m.WellTyped := by
  intro m hm
  simp only [surveyMessages, List.mem_cons, List.not_mem_nil, or_false] at hm
  rcases hm with rfl | rfl
  · exact ⟨.inr ⟨_, rfl⟩, .inl rfl, .inl rfl, [], rfl⟩
  · exact ⟨.inl rfl, .inl rfl, .inl rfl, [⟨_, _, _⟩], rfl⟩

theorem no_results_survey : ∀ m ∈ surveyMessages, ¬m.hasRole "tool" = true := by
  decide

theorem makesUndecodable_survey : ∃ m ∈ surveyMessages, m.hasRole "assistant" = true ∧
    m.MakesUndecodable := by
  refine ⟨_, List.mem_cons_of_mem _ List.mem_cons_self, rfl, ⟨"c1", "survey", "[1]"⟩,
    List.mem_cons_self, by decide, ?_, by decide⟩
  intro fields hread
  have hlist : Json.read "[1]" = .ok (.list [.int 1]) := rfl
  rw [hlist] at hread
  cases hread

theorem not_overruns_survey (vendor : Vendor) : ¬vendor.Overruns surveyMessages := by
  have hcalls : ∀ m ∈ surveyMessages, ¬m.MakesOverlong := by
    rintro m hm ⟨call, hcall, hlong⟩
    simp only [surveyMessages, List.mem_cons, List.not_mem_nil, or_false] at hm
    rcases hm with rfl | rfl
    · cases hcall
    · rw [TextCall.toValue_injective (List.mem_singleton.1 hcall)] at hlong
      exact absurd hlong.long (by decide)
  cases vendor with
  | openAI label => exact not_false
  | anthropic =>
    rintro ⟨m, hm, -, hmakes⟩
    exact hcalls m hm hmakes
  | google tag =>
    rintro ⟨m, hm, ⟨-, hmakes⟩ | ⟨htool, -⟩⟩
    · exact hcalls m hm hmakes
    · exact no_results_survey m hm htool

/-- Arguments that are a list: one vendor takes them as their text, those that take objects turn the
conversation down. -/
theorem adapt_refused_survey :
    (∃ payload, adapt (.openAI .null) (.list (surveyMessages.map Message.toValue)) .null .null =
      .ok payload) ∧
    (∃ cause, adapt .anthropic (.list (surveyMessages.map Message.toValue)) .null .null =
      .error (.invalidMessage cause)) ∧
    ∃ cause, adapt (.google "tag") (.list (surveyMessages.map Message.toValue)) .null .null =
      .error (.invalidMessage cause) := by
  have hnone : Value.null.truthy = false := rfl
  have hverdict (vendor : Vendor) := adapt_refused vendor .null
    (Conversation.gives_map_toValue surveyMessages) wellTyped_surveyMessages hnone
  have hturn : ¬∀ m ∈ surveyMessages, m.hasRole "system" = true := by
    intro hall
    exact absurd (hall _ List.mem_cons_self) (by decide)
  have hroles : ∀ m ∈ surveyMessages, m.role.printable = true := by
    decide
  have hrefused (vendor : Vendor) (hrefuses : vendor.Refuses surveyMessages) :
      ∃ cause, adapt vendor (.list (surveyMessages.map Message.toValue)) .null .null =
        .error (.invalidMessage cause) := by
    rcases (hverdict vendor).1.2 (.inr (.inr (.inl hrefuses))) with ⟨fault, hfault⟩
    cases (hverdict vendor).2.1 fault hfault with
    | invalid cause => exact ⟨cause, hfault⟩
    | empty hnil => cases hnil
    | turnless hall => exact absurd hall hturn
    | unshown hm hrole => exact absurd (hroles _ hm) (by simp [hrole])
    | overrun hlong => exact absurd hlong (not_overruns_survey vendor)
  refine ⟨?_, hrefused .anthropic ?_, hrefused (.google "tag") (.inl makesUndecodable_survey)⟩
  · cases htaken : adapt (.openAI .null) (.list (surveyMessages.map Message.toValue)) .null
        .null with
    | ok payload => exact ⟨payload, rfl⟩
    | error fault =>
      -- there is a turn, no call is answered, and the check passes
      rcases (hverdict (.openAI .null)).1.1 ⟨fault, htaken⟩ with
        ⟨other, hother⟩ | hall | hresult | hlong
      · cases hother
      · exact absurd hall hturn
      · rcases hresult with ⟨m, hm, htool, -⟩
        exact absurd htool (no_results_survey m hm)
      · exact hlong.elim
  · rcases makesUndecodable_survey with ⟨m, hm, hcalls⟩
    exact ⟨m, hm, .inr hcalls⟩

/-- A question, and a call whose arguments are a number with too many digits. -/
def censusMessages : List Message :=
  [{ role := .str "user", content := .str "How many?" },
    { role := .str "assistant", toolCalls := [TextCall.toValue
      ⟨"c1", "census", String.ofList (Number.digits Json.firstLong)⟩] }]

/-- The arguments are no object, and still what is reported is no fault of the message. -/
theorem unreported_of_census :
    adapt .anthropic (.list (censusMessages.map Message.toValue)) .null .null =
      misuse .content := by
  have htyped : ∀ m ∈ censusMessages, m.WellTyped := by
    simp only [censusMessages, List.forall_mem_cons]
    exact ⟨⟨.inr ⟨_, rfl⟩, .inl rfl, .inl rfl, [], rfl⟩, ⟨.inl rfl, .inl rfl, .inl rfl, [_], rfl⟩,
      by simp⟩
  have hlong : Vendor.anthropic.Overruns censusMessages :=
    ⟨_, List.mem_cons_of_mem _ List.mem_cons_self, rfl, _, List.mem_cons_self,
      TextCall.overlong_firstLong "c1" "census"⟩
  have hnever : ¬Vendor.anthropic.Refuses censusMessages := by
    rintro ⟨m, hm, ⟨htool, -⟩ | ⟨-, call, hcall, hrefused⟩⟩
    · simp only [censusMessages, List.mem_cons, List.not_mem_nil, or_false] at hm
      rcases hm with rfl | rfl <;> cases htool
    · simp only [censusMessages, List.mem_cons, List.not_mem_nil, or_false] at hm
      rcases hm with rfl | rfl
      · cases hcall
      · rw [TextCall.toValue_injective (List.mem_singleton.1 hcall)] at hrefused
        exact Bool.false_ne_true (hrefused.short.symm.trans Json.isOverlong_digits)
  have htools : Value.null.truthy = false := rfl
  rcases adapt_cases .anthropic .null (Conversation.gives_map_toValue censusMessages) htyped
      htools with ⟨fault, hcheck, -⟩ | ⟨-, hnone, -⟩ | ⟨-, -, hrefused⟩
  · cases hcheck
  · cases hnone
  · exact hrefused.eq_misuse hnever hlong

end Payload

end Parley
