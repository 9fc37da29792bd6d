import Parley.Proofs.Payload.Refusal
import Parley.Proofs.Reply.Stored
import Parley.Proofs.Turn.Anthropic
import Parley.Proofs.Turn.Google
import Parley.Proofs.Turn.OpenAI

/-!
# Whether a reply is made of texts

The content of a reply that is read is a text or null, and the reply is made of texts exactly if the
parts stored of the response are. No reader turns a response down over a part that is none: it comes
out when the reply is carried to a vendor, which may then fail over the kind of a value and not
report the message. A reply made of texts fails in one way of its own: the arguments of a call may
hold an integer with too many digits.

* `ToolCall.Answerable`, `ToolCall.Decodable`, `ToolCall.Keyed`: what is asked of the arguments and
  ids of calls;
* `Vendor.Handles`: the calls that a vendor takes or turns down as calls;
* `Vendor.typing_of_readReply`: when a reply is made of texts, and what becomes of one that is not.
-/

namespace Parley

open Outcome

def Fault.IsInvalid (fault : Fault) : Prop :=
  ∃ cause, fault = .invalidMessage cause

theorem failsWith_invalid {α : Type} {cause : MessageFault} (h : cause.printable = true) :
    FailsWith Fault.IsInvalid (invalid cause : Outcome α) :=
  failsWith_error ⟨cause, MessageFault.fault_of_printable h⟩

/-- A cause is reported as an invalid message exactly if it can be spelled out. -/
theorem failsWith_invalid_iff {α : Type} {cause : MessageFault} :
    FailsWith Fault.IsInvalid (invalid cause : Outcome α) ↔ cause.printable = true := by
  refine ⟨fun h => ?_, failsWith_invalid⟩
  rcases h _ rfl with ⟨other, hother⟩
  rw [MessageFault.fault] at hother
  split at hother
  · assumption
  · cases hother

/-- Misuse is no fault of the message. -/
theorem not_failsWith_misuse {α : Type} (how : Misuse) :
    ¬FailsWith Fault.IsInvalid (misuse how : Outcome α) := by
  intro h
  rcases h _ rfl with ⟨cause, ⟨⟩⟩

theorem Value.not_failsWith_callMissing {α : Type} (v : Value) (method : String) :
    ¬FailsWith Fault.IsInvalid (v.callMissing method : Outcome α) := by
  rw [callMissing, failsWith_bind_iff]
  rintro ⟨hattr, hmissing⟩
  cases h : v.attr method with
  | error fault =>
    rw [attr] at h hattr
    split at h
    · cases h
    · rename_i hnone
      rw [hnone] at hattr
      exact not_failsWith_misuse _ hattr
  | ok w => exact not_failsWith_misuse _ (hmissing w h)

/-! ## What vendors make of calls -/

namespace ToolCall

/-- The arguments of a call are decoded, or the call is turned down over them: they are null or a
text, and if the text is not one of an object, then no integer in it has too many digits, and the
call can be named. -/
def Answerable (call : ToolCall) : Prop :=
  call.arguments = .null ∨ ∃ text, call.arguments = .str text ∧
    ((∃ fields, Spells text fields) ∨
      (Json.isOverlong text = false ∧ (call.id.orElse call.name).printable = true))

/-- Decoding arguments fails, if it does, with a fault of the message exactly if the text spells an
object, or neither holds a number that is too long nor has a label with one. -/
theorem failsWith_decodeArguments_iff {label : Value} {text : String} :
    FailsWith Fault.IsInvalid (decodeArguments label text) ↔
      (∃ fields, Spells text fields) ∨ (Json.isOverlong text = false ∧ label.printable = true) := by
  by_cases hspelled : ∃ fields, Spells text fields
  · rcases hspelled with ⟨fields, hfields⟩
    refine iff_of_true ?_ (.inl ⟨fields, hfields⟩)
    rw [decodeArguments_eq_ok_iff.2 hfields]
    exact failsWith_ok fields
  rw [or_iff_right hspelled]
  have hblank : Text.strip text.toList ≠ [] := fun hblank => hspelled ⟨[], .inl ⟨hblank, rfl⟩⟩
  rw [decodeArguments, if_neg hblank, Json.isOverlong]
  cases hread : Json.read text with
  | error e =>
    have hsyntax : FailsWith Fault.IsInvalid (invalid (.argumentSyntax label e) : Outcome Fields) ↔
        label.printable = true := failsWith_invalid_iff
    cases hlong : e.isTooLong with
    | true => simpa [hlong] using not_failsWith_misuse .content
    | false => simpa [hlong] using hsyntax
  | ok v =>
    have hshape : FailsWith Fault.IsInvalid (invalid (.argumentsNotObject label) : Outcome Fields) ↔
        label.printable = true := failsWith_invalid_iff
    cases v with
    | dict fields => exact absurd ⟨fields, .inr ⟨hblank, hread⟩⟩ hspelled
    | _ => simpa using hshape

/-- The arguments of a call are found or refused exactly if the call is answerable. -/
theorem failsWith_argumentFields_iff {call : ToolCall} :
    FailsWith Fault.IsInvalid call.argumentFields ↔ call.Answerable := by
  rcases call with ⟨id, name, arguments⟩
  cases arguments with
  | null => exact iff_of_true (failsWith_ok []) (.inl rfl)
  | str text => simpa [Answerable, argumentFields] using failsWith_decodeArguments_iff
  | _ =>
    refine iff_of_false (Value.not_failsWith_callMissing _ "strip") ?_
    rintro (⟨⟨⟩⟩ | ⟨text, ⟨⟩, -⟩)

/-- The calls whose arguments are looked at have a property. They are looked at one after another,
up to the first that cannot be decoded. -/
def Tried (Q : ToolCall → Prop) : List ToolCall → Prop
  | [] => True
  | call :: rest => Q call ∧ ∀ fields, call.argumentFields = .ok fields → Tried Q rest

theorem tried_congr {Q R : ToolCall → Prop} (h : ∀ call, Q call ↔ R call) (calls : List ToolCall) :
    Tried Q calls ↔ Tried R calls := by
  induction calls with
  | nil => exact Iff.rfl
  | cons call rest ih => rw [Tried, Tried, h, ih]

/-- What holds of all calls holds of those that are tried. -/
theorem tried_of_forall {Q : ToolCall → Prop} {calls : List ToolCall}
    (h : ∀ call ∈ calls, Q call) : Tried Q calls := by
  induction calls with
  | nil => trivial
  | cons call rest ih =>
    rcases List.forall_mem_cons.1 h with ⟨hcall, hrest⟩
    exact ⟨hcall, fun _ _ => ih hrest⟩

/-- The ids of calls that count as something can be keys. -/
def Keyed (calls : List ToolCall) : Prop :=
  ∀ call ∈ calls, call.id.truthy = true → call.id.hashable = true

/-- Calls are tried up to the first whose arguments are not found. -/
theorem failsWith_mapM_iff {P : Fault → Prop} {β : Type} {f : Value → Outcome β}
    {make : ToolCall → Fields → β}
    (hf : ∀ call : ToolCall, f call.toValue = do return make call (← call.argumentFields))
    (calls : List ToolCall) :
    FailsWith P ((calls.map toValue).mapM f) ↔
      Tried (fun call => FailsWith P call.argumentFields) calls := by
  induction calls with
  | nil => exact iff_of_true (failsWith_ok []) trivial
  | cons call rest ih =>
    rw [List.map_cons, List.mapM_cons, failsWith_bind_iff, hf, failsWith_return_iff, Tried]
    refine and_congr_right fun _ => ?_
    -- the other calls are looked at only if the arguments of the first can be decoded
    simp only [failsWith_return_iff, ih]
    constructor
    · intro h fields hfields
      exact h (make call fields) (by rw [hfields]; rfl)
    · intro h made hmade
      rcases Outcome.of_bind_eq_ok hmade with ⟨fields, hfields, -⟩
      exact h fields hfields

end ToolCall

namespace Conversation

/-- The ids of calls are found, or one of them cannot be a key. -/
theorem callIds_cases (calls : List ToolCall) :
    (ToolCall.Keyed calls ∧ ∃ ids, callIds (calls.map ToolCall.toValue) = .ok ids) ∨
      (¬ToolCall.Keyed calls ∧ callIds (calls.map ToolCall.toValue) = misuse .kind) := by
  induction calls with
  | nil => exact .inl ⟨by simp [ToolCall.Keyed], [], rfl⟩
  | cons call rest ih =>
    simp only [ToolCall.Keyed, List.forall_mem_cons] at ih ⊢
    rw [List.map_cons, callIds, Outcome.bind_of_ok call.attr_id]
    cases htruthy : call.id.truthy with
    | false => simpa using ih
    | true =>
      cases hhashable : call.id.hashable with
      | false => exact .inr ⟨by simp, rfl⟩
      | true =>
        rcases ih with ⟨hrest, ids, hids⟩ | ⟨hrest, hids⟩
        · refine .inl ⟨⟨fun _ => rfl, hrest⟩, ?_⟩
          rw [if_pos rfl, if_pos rfl, Outcome.bind_of_ok hids]
          cases call.id <;> exact ⟨_, rfl⟩
        · refine .inr ⟨fun hall => hrest hall.2, ?_⟩
          rw [if_pos rfl, if_pos rfl, hids]
          rfl

end Conversation

/-! ## A reply after a user message -/

/-- Whether a vendor takes the arguments of calls as objects. -/
def Vendor.decodesArguments : Vendor → Bool
  | .openAI _ => false
  | .anthropic => true
  | .google _ => true

/-- The calls that a vendor takes, or turns down as calls: ids that count as something can be keys,
and arguments that the vendor decodes can be decoded or make for a message that says why not. -/
structure Vendor.Handles (vendor : Vendor) (calls : List ToolCall) : Prop where
  ids : ToolCall.Keyed calls
  arguments : vendor.decodesArguments = true → ToolCall.Tried ToolCall.Answerable calls

section Answered

variable {P : Fault → Prop} {question m : Message} {calls : List ToolCall}

namespace OpenAI

theorem exists_ofMessage_assistant (hrole : m.hasRole "assistant" = true)
    (hcalls : m.toolCalls = calls.map ToolCall.toValue) : ∃ turn, Turn.ofMessage m = .ok turn := by
  by_cases hnone : m.toolCalls = []
  · exact ⟨_, ofMessage_plain hrole hnone⟩
  · -- an entry takes the parts of a call as they are
    have hmade : (calls.map ToolCall.toValue).mapM Call.ofValue =
        .ok (calls.map fun call =>
          ⟨call.id, call.name, call.arguments.orElse (.str "{}")⟩) :=
      Outcome.mapM_map_of_ok fun call _ => rfl
    rw [ofMessage_calls hrole hnone, hcalls, Outcome.bind_of_ok hmade]
    exact ⟨_, rfl⟩

/-- It takes the whole conversation with them. -/
theorem exists_turns_answered (hquestion : question.hasRole "user" = true)
    (hrole : m.hasRole "assistant" = true) (hcalls : m.toolCalls = calls.map ToolCall.toValue)
    (system : Value) : ∃ entries, turns [question, m] system = .ok entries := by
  rcases exists_ofMessage_assistant hrole hcalls with ⟨turn, hturn⟩
  have htold : [question, m].mapM Turn.ofMessage =
      .ok [.user (question.content.orElse (.str "")), turn] := by
    rw [List.mapM_cons, Outcome.bind_of_ok (ofMessage_user hquestion), List.mapM_cons,
      Outcome.bind_of_ok hturn]
    rfl
  rw [turns, Outcome.bind_of_ok htold]
  exact ⟨_, rfl⟩

end OpenAI

namespace Anthropic

/-- The second vendor fails with a message as it fails with its calls. -/
theorem failsWith_ofMessage_iff (hrole : m.hasRole "assistant" = true)
    (hcalls : m.toolCalls = calls.map ToolCall.toValue) :
    FailsWith P (Turn.ofMessage m) ↔
      ToolCall.Tried (fun call => FailsWith P call.argumentFields) calls := by
  by_cases hnone : calls = []
  · subst hnone
    rw [ofMessage_plain hrole hcalls]
    exact iff_of_true (failsWith_ok _) trivial
  · rw [ofMessage_calls hrole (by simpa [hcalls] using hnone), failsWith_return_iff, hcalls]
    exact ToolCall.failsWith_mapM_iff (fun _ => rfl) calls

theorem resultBlocks_of_assistant {turn : Turn} (hrole : m.hasRole "assistant" = true)
    (h : Turn.ofMessage m = .ok turn) : turn.resultBlocks? = .ok none := by
  have huser : m.hasRole "user" = false := Message.not_hasRole hrole (by decide)
  simp only [Turn.ofMessage, huser, hrole, Bool.false_eq_true, if_true, if_false] at h
  split at h
  · cases h
    rfl
  · obtain ⟨uses, -, h⟩ := Outcome.of_bind_eq_ok h
    cases h
    rfl

/-- The entry of a reply is added behind that of the question, whatever the question holds. -/
theorem turns_answered (hquestion : question.hasRole "user" = true)
    (hrole : m.hasRole "assistant" = true) :
    turns [question, m] =
      do return [.user (question.content.orElse (.str "")), ← Turn.ofMessage m] := by
  have hfirst : push [] (.user (question.content.orElse (.str ""))) =
      .ok [.user (question.content.orElse (.str ""))] := rfl
  rw [turns, turnsAfter, Outcome.bind_of_ok (ofMessage_user hquestion), Outcome.bind_of_ok hfirst,
    turnsAfter]
  cases hturn : Turn.ofMessage m with
  | error fault => rfl
  | ok turn =>
    have hpush : push [.user (question.content.orElse (.str ""))] turn =
        .ok [turn, .user (question.content.orElse (.str ""))] := by
      rw [push, Outcome.bind_of_ok (resultBlocks_of_assistant hrole hturn)]
      rfl
    rw [Outcome.bind_of_ok (x := .ok turn) rfl, Outcome.bind_of_ok hpush]
    rfl

end Anthropic

namespace Google

theorem failsWith_ofMessage_iff (seen : List Message) (hrole : m.hasRole "assistant" = true)
    (hcalls : m.toolCalls = calls.map ToolCall.toValue) :
    FailsWith P (Turn.ofMessage seen m) ↔
      ToolCall.Tried (fun call => FailsWith P call.argumentFields) calls := by
  by_cases hnone : calls = []
  · subst hnone
    rw [ofMessage_plain seen hrole hcalls]
    exact iff_of_true (failsWith_ok _) trivial
  · rw [ofMessage_calls seen hrole (by simpa [hcalls] using hnone), failsWith_return_iff, hcalls]
    exact ToolCall.failsWith_mapM_iff (fun _ => rfl) calls

/-- Behind a question there is the turn of the answer. -/
theorem turns_answered (hquestion : question.hasRole "user" = true) :
    turns [question, m] =
      do return [.user (question.content.orElse (.str "")), ← Turn.ofMessage [question] m] := by
  rw [turns, turnsAfter, Outcome.bind_of_ok (ofMessage_user [] hquestion)]
  cases hturn : Turn.ofMessage [question] m with
  | error fault =>
    simp only [turnsAfter, List.nil_append, hturn]
    rfl
  | ok turn =>
    simp only [turnsAfter, List.nil_append, hturn]
    rfl

end Google

namespace Payload

/-- Of the question and the answer a vendor that decodes arguments fails with the answer's calls,
and no other does. -/
theorem failsWith_entries_iff (vendor : Vendor) (hquestion : question.hasRole "user" = true)
    (hrole : m.hasRole "assistant" = true) (hcalls : m.toolCalls = calls.map ToolCall.toValue)
    (system : Value) :
    FailsWith P (entries vendor [question, m] system) ↔
      (vendor.decodesArguments = true →
        ToolCall.Tried (fun call => FailsWith P call.argumentFields) calls) := by
  cases vendor with
  | openAI label =>
    rcases OpenAI.exists_turns_answered hquestion hrole hcalls system with ⟨turns, hturns⟩
    refine iff_of_true ?_ (by rintro ⟨⟩)
    rw [entries, Outcome.bind_of_ok hturns]
    exact failsWith_ok _
  | anthropic =>
    have hdecodes : Vendor.anthropic.decodesArguments = true := rfl
    rw [forall_prop_of_true hdecodes, entries, failsWith_return_iff,
      Anthropic.turns_answered hquestion hrole, failsWith_return_iff,
      Anthropic.failsWith_ofMessage_iff hrole hcalls]
  | google tag =>
    have hdecodes : (Vendor.google tag).decodesArguments = true := rfl
    rw [forall_prop_of_true hdecodes, entries, failsWith_return_iff,
      Google.turns_answered hquestion, failsWith_return_iff,
      Google.failsWith_ofMessage_iff [question] hrole hcalls]

/-- A user message and a reply to it are carried to a vendor by looking at the ids of the calls
first, and then at the calls. -/
theorem adapt_answered (vendor : Vendor) (hquestion : question.hasRole "user" = true)
    (hnone : question.toolCalls = []) (hrole : m.hasRole "assistant" = true)
    (systemPrompt : Value) :
    adapt vendor (.list [question.toValue, m.toValue]) systemPrompt .null =
      (do let _ ← Conversation.callIds m.toolCalls
          let made ← entries vendor [question, m] systemPrompt
          return ⟨vendor.label, .list made, systemPrompt, .null⟩) := by
  have hspoken : ∀ n ∈ [question, m], n.hasRole "system" = false := by
    simp [Message.not_hasRole hquestion, Message.not_hasRole hrole]
  have hcheck : Conversation.check [question, m] =
      (do let _ ← Conversation.callIds m.toolCalls; return ()) := by
    rw [Conversation.check_eq_checkFrom (by simp), Conversation.checkFrom,
      Outcome.bind_of_ok (Conversation.checkMessage_of_user 0 [] hquestion hnone),
      Conversation.checkFrom, Conversation.checkMessage_of_assistant _ _ hrole, bind_assoc]
    rfl
  have hmade : ofMessages vendor [question, m] systemPrompt .null =
      (do let made ← entries vendor [question, m] systemPrompt
          return ⟨vendor.label, .list made, systemPrompt, .null⟩) := by
    rw [ofMessages, Outcome.bind_of_ok (Conversation.systemPrompt_of_none hspoken systemPrompt),
      Conversation.turns_of_none hspoken]
    rfl
  have hgives : Conversation.Gives (.list [question.toValue, m.toValue]) [question, m] :=
    Conversation.gives_map_toValue [question, m]
  rw [adapt_of_gives hgives, hcheck, hmade, bind_assoc]
  rfl

/-- A user message that makes calls is turned down. -/
theorem exists_invalid_of_calls (vendor : Vendor) (hquestion : question.hasRole "user" = true)
    (hsome : question.toolCalls ≠ []) (systemPrompt : Value) :
    ∃ cause : MessageFault, cause.printable = true ∧
      adapt vendor (.list [question.toValue, m.toValue]) systemPrompt .null = invalid cause := by
  have hknown : Message.roles.any question.hasRole = true :=
    List.any_eq_true.2 ⟨"user", by decide, hquestion⟩
  have hassistant : question.hasRole "assistant" = false :=
    Message.not_hasRole hquestion (by decide)
  have hrefused : Conversation.checkMessage 0 [] question =
      invalid (.callsOutsideAssistant question.role 0) := by
    simp [Conversation.checkMessage, hknown, hassistant, hsome]
  have hgives : Conversation.Gives (.list [question.toValue, m.toValue]) [question, m] :=
    Conversation.gives_map_toValue [question, m]
  have hshown : question.role.printable = true := by
    rw [Value.eq_str_of_isText hquestion]
    rfl
  refine ⟨.callsOutsideAssistant question.role 0, hshown, ?_⟩
  rw [adapt_of_gives hgives, Conversation.check_eq_checkFrom (by simp), Conversation.checkFrom,
    hrefused]
  rfl

/-- How carrying a reply after a user message to a vendor can fail. -/
theorem failsWith_adapt_iff (vendor : Vendor) (hinvalid : ∀ fault, fault.IsInvalid → P fault)
    (hkind : ¬P (.misuse .kind)) (hquestion : question.hasRole "user" = true)
    (hrole : m.hasRole "assistant" = true) (hcalls : m.toolCalls = calls.map ToolCall.toValue)
    (systemPrompt : Value) :
    FailsWith P (adapt vendor (.list [question.toValue, m.toValue]) systemPrompt .null) ↔
      (question.toolCalls = [] → ToolCall.Keyed calls ∧ (vendor.decodesArguments = true →
        ToolCall.Tried (fun call => FailsWith P call.argumentFields) calls)) := by
  by_cases hnone : question.toolCalls = []
  · rw [forall_prop_of_true hnone, adapt_answered vendor hquestion hnone hrole, hcalls]
    -- the check fails over an id before any entry is made
    rcases Conversation.callIds_cases calls with ⟨hkeyed, ids, hids⟩ | ⟨hnot, hids⟩
    · rw [Outcome.bind_of_ok hids, failsWith_return_iff,
        failsWith_entries_iff vendor hquestion hrole hcalls, and_iff_right hkeyed]
    · rw [hids]
      refine iff_of_false (fun h => hkind (h _ rfl)) ?_
      intro hhandles
      exact hnot hhandles.1
  · refine iff_of_true ?_ fun h => absurd h hnone
    rcases exists_invalid_of_calls vendor hquestion hnone systemPrompt with ⟨cause, hshown, hcause⟩
    rw [hcause]
    exact (failsWith_invalid hshown).imp hinvalid

/-- A reply after a user message can be carried to a vendor, or is turned down as a message. -/
def TakesOrRefuses (vendor : Vendor) (question m : Message) (systemPrompt : Value) : Prop :=
  FailsWith Fault.IsInvalid
    (adapt vendor (.list [question.toValue, m.toValue]) systemPrompt .null)

/-- An answer is taken or refused exactly if its calls can be handled, as long as the question makes
none. -/
theorem takesOrRefuses_iff (vendor : Vendor) (hquestion : question.hasRole "user" = true)
    (hrole : m.hasRole "assistant" = true) (hcalls : m.toolCalls = calls.map ToolCall.toValue)
    (systemPrompt : Value) :
    TakesOrRefuses vendor question m systemPrompt ↔
      (question.toolCalls = [] → vendor.Handles calls) := by
  have hkind : ¬Fault.IsInvalid (.misuse .kind) := by
    rintro ⟨cause, ⟨⟩⟩
  rw [TakesOrRefuses, failsWith_adapt_iff vendor (fun _ => id) hkind hquestion hrole hcalls,
    ToolCall.tried_congr fun call => ToolCall.failsWith_argumentFields_iff]
  exact forall_congr' fun _ => ⟨fun h => ⟨h.1, h.2⟩, fun h => ⟨h.ids, h.arguments⟩⟩

end Payload

end Answered

/-! ## Replies -/

namespace Vendor

/-- Calls of texts have ids by which they can be known. -/
theorem keyed_of_textual {calls : List ToolCall} (h : ∀ call ∈ calls, call.Textual) :
    ToolCall.Keyed calls := by
  intro call hcall _
  rcases (h call hcall).id with ⟨s, hs⟩
  rw [hs]
  rfl

/-- The content of a reply is a text or null. -/
theorem ReplyShape.isOptionalText_content {vendor : Vendor} {response : Value} {m : Message}
    (h : vendor.ReplyShape response m) : m.content.IsOptionalText := by
  rcases h.content with ⟨text, -, hcontent⟩
  rw [hcontent]
  split
  · exact .inl rfl
  · exact .inr ⟨text, rfl⟩

/-- A reply made of texts is carried to a vendor after a user message or turned down as a message,
or else the vendor decodes its arguments and an integer in them has too many digits. -/
theorem takesOrRefuses_of_wellTyped {m question : Message} {calls : List ToolCall}
    (htexts : ∀ call ∈ calls, call.Textual) (hcalls : m.toolCalls = calls.map ToolCall.toValue)
    (hrole : m.hasRole "assistant" = true) (hquestion : question.hasRole "user" = true)
    (target : Vendor) (systemPrompt : Value) :
    Payload.TakesOrRefuses target question m systemPrompt ∨
      (target.decodesArguments = true ∧ m.MakesOverlong ∧
        Payload.adapt target (.list [question.toValue, m.toValue]) systemPrompt .null =
          misuse .content) := by
  let P : Fault → Prop := fun fault => fault.IsInvalid ∨
    (target.decodesArguments = true ∧ m.MakesOverlong ∧ fault = .misuse .content)
  have hkind : ¬P (.misuse .kind) := by
    rintro (⟨cause, ⟨⟩⟩ | ⟨-, -, ⟨⟩⟩)
  have hdecoded : target.decodesArguments = true →
      ToolCall.Tried (fun call => FailsWith P call.argumentFields) calls := by
    intro hdecodes
    refine ToolCall.tried_of_forall fun call hcall fault hfault => ?_
    rcases (htexts call hcall).exists_toCall with ⟨text, rfl⟩
    have hmem : text.toValue ∈ m.toolCalls := hcalls ▸ List.mem_map_of_mem hcall
    exact (text.refusedIf_argumentFields.cases_fault hfault).imp_right fun ⟨hlong, hcontent⟩ =>
      ⟨hdecodes, ⟨text, hmem, hlong⟩, hcontent⟩
  have hfails : FailsWith P
      (Payload.adapt target (.list [question.toValue, m.toValue]) systemPrompt .null) :=
    (Payload.failsWith_adapt_iff target (fun _ => .inl) hkind hquestion hrole hcalls
      systemPrompt).2 fun _ => ⟨keyed_of_textual htexts, hdecoded⟩
  rw [Payload.TakesOrRefuses]
  cases hadapt : Payload.adapt target (.list [question.toValue, m.toValue]) systemPrompt .null with
  | ok payload => exact .inl (failsWith_ok payload)
  | error fault =>
    rcases hfails fault hadapt with hinvalid | ⟨hdecodes, hlong, rfl⟩
    · exact .inl (failsWith_error hinvalid)
    · exact .inr ⟨hdecodes, hlong, rfl⟩

/-- The content of a reply that is read is a text or null, and the reply is made of texts exactly if
all that is stored of the response are texts. After a user message it can be carried to a vendor, or
is turned down as a message, exactly if the vendor handles its calls or the user message makes calls
itself; so this is what happens to a reply made of texts, unless the vendor decodes arguments in
which an integer has too many digits. -/
theorem typing_of_readReply {vendor : Vendor} {response : Value} {m : Message}
    (h : vendor.readReply response = .ok m) :
    m.content.IsOptionalText ∧
      (∃ stored, vendor.storedParts response = .ok stored ∧
        (m.WellTyped ↔ ∀ v ∈ stored, v.Textual)) ∧
      (∃ calls : List ToolCall, m.toolCalls = calls.map ToolCall.toValue ∧
        ∀ (target : Vendor) (question : Message) (systemPrompt : Value),
          question.hasRole "user" = true →
            (Payload.TakesOrRefuses target question m systemPrompt ↔
              (question.toolCalls = [] → target.Handles calls))) ∧
      (m.WellTyped → ∀ (target : Vendor) (question : Message) (systemPrompt : Value),
        question.hasRole "user" = true →
          Payload.TakesOrRefuses target question m systemPrompt ∨
            (target.decodesArguments = true ∧ m.MakesOverlong ∧
              Payload.adapt target (.list [question.toValue, m.toValue]) systemPrompt .null =
                misuse .content)) := by
  have hshape := replyShape_of_readReply h
  have hcontent : m.content.IsOptionalText := hshape.isOptionalText_content
  have hrole : m.hasRole "assistant" = true := Message.hasRole_of_eq hshape.role
  rcases stores_of_readReply h with ⟨calls, stored, hcalls, hstored, htexts⟩
  have htyped : m.WellTyped ↔ ∀ call ∈ calls, call.Textual :=
    hshape.toSpoken.wellTyped_iff hcontent hcalls
  refine ⟨hcontent, ⟨stored, hstored, htyped.trans htexts⟩, ⟨calls, hcalls, ?_⟩, ?_⟩
  · intro target question systemPrompt hquestion
    exact Payload.takesOrRefuses_iff target hquestion hrole hcalls systemPrompt
  · intro hwell target question systemPrompt hquestion
    exact takesOrRefuses_of_wellTyped (htyped.1 hwell) hcalls hrole hquestion target systemPrompt

/-- A chat completion that calls a function with some arguments. -/
def forecastResponse (arguments : Value) : Value :=
  .dict [("choices", .list [.dict [
    ("message", .dict [("role", .str "assistant"), ("content", .null),
      ("tool_calls", .list [.dict [("id", .str "c1"), ("type", .str "function"),
        ("function", .dict [("name", .str "weather"), ("arguments", arguments)])]])]),
    ("finish_reason", .str "tool_calls")]])]

def forecastReply (arguments : Value) : Message :=
  Reply.message "" [⟨.str "c1", .str "weather", arguments⟩] none .null (.str "tool_calls")

def forecastQuestion : Message :=
  { role := .str "user", content := .str "Will it rain in Oslo?" }

/-- The forecast that was read with its arguments as a text is taken or refused. -/
theorem typing_of_readReply_forecast :
    (forecastReply (.str r#"{"city": "Oslo"}"#)).WellTyped ∧
      Payload.TakesOrRefuses .anthropic forecastQuestion
        (forecastReply (.str r#"{"city": "Oslo"}"#)) .null := by
  have hread : (Vendor.openAI (.str "openai")).readReply
      (forecastResponse (.str r#"{"city": "Oslo"}"#)) =
        .ok (forecastReply (.str r#"{"city": "Oslo"}"#)) := rfl
  rcases typing_of_readReply hread with ⟨-, ⟨stored, hstored, htyped⟩, -, hoffered⟩
  have hparts : stored = [.str "c1", .str "weather", .str r#"{"city": "Oslo"}"#] :=
    (Except.ok.inj hstored).symm
  have hwell : (forecastReply (.str r#"{"city": "Oslo"}"#)).WellTyped := by
    rw [htyped, hparts]
    simp [Value.Textual]
  have hwrite : Json.write (.dict [("city", .str "Oslo")]) = .ok r#"{"city": "Oslo"}"# :=
    Json.write_eq_ok_iff.2 ⟨by decide, by decide +kernel⟩
  have hshort : ¬(forecastReply (.str r#"{"city": "Oslo"}"#)).MakesOverlong := by
    rintro ⟨call, hcall, hlong⟩
    have hsame : call = ⟨"c1", "weather", r#"{"city": "Oslo"}"#⟩ :=
      TextCall.toValue_injective (List.mem_singleton.1 hcall)
    rw [hsame] at hlong
    have hread := Json.isOverlong_of_read (Json.read_of_write hwrite)
    exact Bool.false_ne_true (hread.symm.trans hlong.long)
  rcases hoffered hwell .anthropic forecastQuestion .null rfl with htaken | ⟨-, hlong, -⟩
  · exact ⟨hwell, htaken⟩
  · exact absurd hlong hshort

/-- Arguments that are an object and no text: the reply is read all the same, is not made of texts,
and cannot be carried to another vendor, which fails over what kind of value they are. -/
theorem untyped_of_object :
    (Vendor.openAI (.str "openai")).readReply
        (forecastResponse (.dict [("city", .str "Oslo")])) =
      .ok (forecastReply (.dict [("city", .str "Oslo")])) ∧
    ¬(forecastReply (.dict [("city", .str "Oslo")])).WellTyped ∧
    Payload.adapt .anthropic (.list [forecastQuestion.toValue,
      (forecastReply (.dict [("city", .str "Oslo")])).toValue]) .null .null =
        misuse .member := by
  refine ⟨rfl, ?_, rfl⟩
  intro htyped
  have htexts : ∀ call ∈ [ToolCall.mk (.str "c1") (.str "weather") (.dict [("city", .str "Oslo")])],
      call.Textual := ToolCall.exists_texts_iff.1 htyped.toolCalls
  rcases (List.forall_mem_singleton.1 htexts).arguments with ⟨s, ⟨⟩⟩

end Vendor

end Parley
