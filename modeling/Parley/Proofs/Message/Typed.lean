import Mathlib.Data.List.DropRight
import Parley.Message.Arguments
import Parley.Proofs.Outcome

/-!
# Messages of texts

The fields of a message may hold any value. This file says which messages hold what a conversation
is meant to hold: contents, names and ids that are texts or null, and calls whose three parts are
texts. It also gives the few facts about such fields that statements about conversations rest on.
-/

namespace Parley

structure TextCall where
  id : String
  name : String
  arguments : String

namespace TextCall

def toCall (call : TextCall) : ToolCall :=
  ⟨.str call.id, .str call.name, .str call.arguments⟩

def toValue (call : TextCall) : Value :=
  call.toCall.toValue

/-- Calls of texts are told apart by what is stored of them. -/
theorem toValue_injective : Function.Injective toValue := by
  rintro ⟨id, name, arguments⟩ ⟨otherId, otherName, otherArguments⟩ h
  simpa [toValue, toCall, ToolCall.toValue] using h

@[simp] theorem attr_id (call : TextCall) : call.toValue.attr "id" = .ok (.str call.id) := rfl

@[simp] theorem attr_name (call : TextCall) :
    call.toValue.attr "function_name" = .ok (.str call.name) := rfl

@[simp] theorem attr_arguments (call : TextCall) :
    call.toValue.attr "arguments_json" = .ok (.str call.arguments) := rfl

end TextCall

namespace Value

def IsOptionalText (v : Value) : Prop :=
  v = .null ∨ ∃ s, v = .str s

def textOrEmpty (v : Value) : String :=
  v.text?.getD ""

theorem orElse_empty_str (s : String) : (Value.str s).orElse (.str "") = .str s := by
  by_cases hs : s = ""
  · subst hs
    rfl
  · simp [orElse, hs]

namespace IsOptionalText

variable {v : Value}

theorem printable (h : v.IsOptionalText) : v.printable = true := by
  rcases h with rfl | ⟨s, rfl⟩ <;> rfl

/-- An optional text stands for itself, and for the empty text if there is none. -/
theorem orElse_empty (h : v.IsOptionalText) : v.orElse (.str "") = .str v.textOrEmpty := by
  rcases h with rfl | ⟨s, rfl⟩
  · rfl
  · exact orElse_empty_str s

theorem orElse_null (h : v.IsOptionalText) :
    v.orElse .null = if v.textOrEmpty = "" then .null else .str v.textOrEmpty := by
  rcases h with rfl | ⟨s, rfl⟩
  · rfl
  · by_cases hs : s = "" <;> simp [orElse, textOrEmpty, text?, hs]

/-- It counts as something if it is not empty. -/
theorem truthy_iff (h : v.IsOptionalText) : v.truthy = true ↔ v.textOrEmpty ≠ "" := by
  rcases h with rfl | ⟨s, rfl⟩
  · simp [truthy, textOrEmpty, text?]
  · simp [textOrEmpty, text?]

/-- If it counts as something, it is a text. -/
theorem eq_str_of_truthy (h : v.IsOptionalText) (ht : v.truthy = true) :
    v = .str v.textOrEmpty := by
  rcases h with rfl | ⟨s, rfl⟩
  · cases ht
  · rfl

theorem empty_of_not_truthy (h : v.IsOptionalText) (ht : ¬v.truthy = true) :
    v.textOrEmpty = "" := by
  by_contra hne
  exact ht (h.truthy_iff.2 hne)

/-- It counts as nothing if it is null or empty. -/
theorem not_truthy_iff (h : v.IsOptionalText) : ¬v.truthy = true ↔ v = .null ∨ v = .str "" := by
  rcases h with rfl | ⟨s, rfl⟩
  · simp [truthy]
  · simp [truthy_str]

/-- What is kept only if it is truthy is kept exactly if there is a text to keep. -/
theorem some_if_truthy (h : v.IsOptionalText) :
    (if v.truthy then some v else none) =
      if v.textOrEmpty = "" then none else some (.str v.textOrEmpty) := by
  by_cases ht : v.truthy = true
  · rw [if_pos ht, if_neg (h.truthy_iff.1 ht), ← h.eq_str_of_truthy ht]
  · rw [if_neg ht, if_pos (h.empty_of_not_truthy ht)]

end IsOptionalText

end Value

namespace Text

/-- What is left without the blanks at its two ends has none there. -/
theorem strip_strip (cs : List Char) : strip (strip cs) = strip cs := by
  have hstart : trimStart isBlank (strip cs) = strip cs := by
    -- what is left begins as it did when only the blanks in front were gone
    have hbegin : strip cs <+: trimStart isBlank cs :=
      List.rdropWhile_prefix isBlank _
    cases hleft : strip cs with
    | nil => rfl
    | cons c rest =>
      rw [hleft] at hbegin
      obtain ⟨dropped, hdropped⟩ := hbegin
      have hc : isBlank c = false := trimStart_ne_drop hdropped.symm
      simp [trimStart, hc]
  have hend : trimEnd isBlank (strip cs) = strip cs :=
    List.rdropWhile_idempotent isBlank _
  rw [strip, trim, hstart, hend]

end Text

namespace Message

/-- A message whose content, name and answered id are texts or null and whose calls are made of
texts. -/
structure WellTyped (m : Message) : Prop where
  content : m.content.IsOptionalText
  toolCallId : m.toolCallId.IsOptionalText
  name : m.name.IsOptionalText
  toolCalls : ∃ calls : List TextCall, m.toolCalls = calls.map TextCall.toValue

def text (m : Message) : String :=
  m.content.textOrEmpty

/-- The id of the call that a message answers, without the blanks around it. -/
def answered (m : Message) : String :=
  String.ofList (Text.strip m.toolCallId.textOrEmpty.toList)

/-- The id that a message of texts answers can be told. -/
theorem WellTyped.answeredId {m : Message} (h : m.WellTyped) : m.answeredId = .ok m.answered := by
  rw [Message.answeredId, h.toolCallId.orElse_empty]
  rfl

/-- A message answers a call exactly if something is left of the id without the blanks. -/
theorem WellTyped.requireAnsweredId_eq_ok_iff {m : Message} {id : String} (h : m.WellTyped) :
    m.requireAnsweredId = .ok id ↔ m.answered ≠ "" ∧ id = m.answered := by
  rw [requireAnsweredId, h.answeredId, Outcome.bind_of_ok rfl]
  by_cases hblank : m.answered = ""
  · simp [hblank, invalid]
  · simp [hblank, pure, Except.pure, eq_comm]

/-- The role of a message is the text that it is asked for. -/
theorem role_of_hasRole {m : Message} {role : String} (h : m.hasRole role = true) :
    m.role = .str role :=
  Value.eq_str_of_isText h

theorem not_hasRole {m : Message} {role other : String} (h : m.hasRole role = true)
    (hne : role ≠ other) : m.hasRole other = false := by
  simp [hasRole, role_of_hasRole h, Value.isText, hne]

/-- A message that is a turn of a conversation: not a system message, and of a known role. -/
def IsTurn (m : Message) : Prop :=
  m.hasRole "user" = true ∨ m.hasRole "assistant" = true ∨ m.hasRole "tool" = true

def Speaks (m : Message) : Prop :=
  m.hasRole "user" = true ∨ m.hasRole "assistant" = true

/-- A turn is the answer to a call, or it is spoken. -/
theorem IsTurn.tool_or_speaks {m : Message} (h : m.IsTurn) :
    m.hasRole "tool" = true ∨ m.Speaks := by
  rcases h with huser | hassistant | htool
  · exact .inr (.inl huser)
  · exact .inr (.inr hassistant)
  · exact .inl htool

theorem IsTurn.not_system {m : Message} (h : m.IsTurn) : m.hasRole "system" = false := by
  rcases h with h | h | h <;> exact not_hasRole h (by decide)

/-- A message without calls is a text. -/
theorem turn_of_no_calls {m : Message} (h : m.toolCalls = []) :
    m.turn = .text (m.content.orElse (.str "")) := by
  simp [turn, h]

/-- Any other message makes calls, and may say something with them. -/
theorem turn_of_calls {m : Message} (h : m.toolCalls ≠ []) :
    m.turn = .calls m.toolCalls m.content := by
  simp [turn, h]

theorem hasRole_of_eq {m : Message} {role : String} (h : m.role = .str role) :
    m.hasRole role = true := by
  simp [hasRole, h]

theorem Speaks.not_hasRole {m : Message} {role : String} (h : m.Speaks) (huser : "user" ≠ role)
    (hassistant : "assistant" ≠ role) : m.hasRole role = false := by
  rcases h with h | h
  · exact Message.not_hasRole h huser
  · exact Message.not_hasRole h hassistant

end Message

end Parley
