import Parley.Proofs.Transcript.Basic
import Parley.Proofs.Turn.OpenAI

/-!
# Transcripts of chat completions

Every message becomes an entry of its own, so the transcript of a conversation is read entry by
entry, behind the system instruction if there is one.
-/

namespace Parley.OpenAI

variable {label : Value}

theorem ofEntry_user (text : String) :
    Transcript.ofEntry (.openAI label) (Turn.user (.str text)).toValue =
      [⟨.str "user", .text (.str text)⟩] := by
  simp [Transcript.ofEntry, Vendor.readParts, readParts, Turn.toValue, readContent, readCalls]

theorem ofEntry_assistant (text : String) :
    Transcript.ofEntry (.openAI label) (Turn.assistant (.str text)).toValue =
      [⟨.str "assistant", .text (.str text)⟩] := by
  simp [Transcript.ofEntry, Vendor.readParts, readParts, Turn.toValue, readContent, readCalls]

theorem ofEntry_result (id : String) (content : Value) :
    Transcript.ofEntry (.openAI label) (Turn.result id content).toValue =
      [⟨.str "tool", .result (.str id) content⟩] := by
  simp [Transcript.ofEntry, Vendor.readParts, readParts, Turn.toValue]

def Call.part (call : Call) : Part :=
  .call (some call.id) call.name call.arguments

theorem readCall_toValue (call : Call) : readCall call.toValue = call.part := by
  simp [readCall, Call.toValue, Call.part]

/-- The items of an entry with calls are the text, if there is one, and the calls. -/
theorem ofEntry_calls (text : Value) (made : List Call) :
    Transcript.ofEntry (.openAI label) (Turn.calls text made).toValue =
      (readContent text ++ made.map Call.part).map (Item.mk (.str "assistant")) := by
  have hcalls : (made.map Call.toValue).map readCall = made.map Call.part := by
    rw [List.map_map]
    exact List.map_congr_left fun call _ => readCall_toValue call
  simp [Transcript.ofEntry, Vendor.readParts, readParts, Turn.toValue, readCalls, hcalls]

/-- Calls are told with their ids, their names and the texts of their arguments. -/
theorem tells_calls (calls : List TextCall) :
    List.Forall₂ (TellsCall (.openAI label)) calls ((calls.map Call.ofText).map Call.part) := by
  rw [List.map_map, List.forall₂_map_right_iff]
  exact List.forall₂_same.2 fun call _ => rfl

/-- A text is told if it is not empty. -/
theorem readContent_orElse {m : Message} (h : m.content.IsOptionalText) :
    readContent (m.content.orElse .null) = m.textParts := by
  rw [h.orElse_null, Message.textParts, Message.text]
  split <;> rfl

/-- An entry says what its message says. -/
theorem tells_ofMessage {m : Message} {turn : Turn} (hm : m.WellTyped)
    (hrole : m.IsTurn) (h : Turn.ofMessage m = .ok turn) :
    Tells (.openAI label) m (Transcript.ofEntry (.openAI label) turn.toValue) := by
  have hcontent : m.content.orElse (.str "") = .str m.text := hm.content.orElse_empty
  rcases hrole with huser | hassistant | htool
  · rw [ofMessage_user huser, hcontent] at h
    cases h
    rw [ofEntry_user]
    exact .user huser
  · obtain ⟨calls, hcalls⟩ := hm.toolCalls
    by_cases hnone : calls = []
    · have hcalls : m.toolCalls = [] := by rw [hcalls, hnone]; rfl
      rw [ofMessage_plain hassistant hcalls, hcontent] at h
      cases h
      rw [ofEntry_assistant]
      exact .plain hassistant hcalls
    · rw [ofMessage_calling hassistant hcalls hnone] at h
      cases h
      rw [ofEntry_calls, readContent_orElse hm.content]
      exact .calling hassistant hcalls hnone (tells_calls calls)
  · rw [ofMessage_result htool, hcontent] at h
    obtain ⟨id, hid, h⟩ := Outcome.of_bind_eq_ok h
    cases h
    rw [(hm.requireAnsweredId_eq_ok_iff.1 hid).2, ofEntry_result]
    exact .result htool rfl

/-- No message is converted to a system entry. -/
theorem ofMessage_ne_system {m : Message} {turn : Turn} (h : Turn.ofMessage m = .ok turn)
    (text : Value) : turn ≠ .system text := by
  rintro rfl
  -- of the roles none leads to a system entry
  unfold Turn.ofMessage at h
  split at h
  · cases h
  · split at h
    · split at h
      · cases h
      · obtain ⟨calls, -, h⟩ := Outcome.of_bind_eq_ok h
        cases h
    · obtain ⟨id, -, h⟩ := Outcome.of_bind_eq_ok h
      cases h

/-- The role of any other entry is not that of the system. -/
theorem isText_role_toValue {turn : Turn} (h : ∀ text, turn ≠ .system text) :
    (turn.toValue.read "role").isText "system" = false := by
  cases turn with
  | system text => exact absurd rfl (h text)
  | _ => simp [Turn.toValue, Value.isText]

/-- Behind the system instruction stand the entries of the messages. -/
theorem body_entries (label : Value) {ms : List Message} {told : List Turn} (system : Value)
    (h : List.Forall₂ (fun m turn => Turn.ofMessage m = .ok turn) ms told) :
    (Vendor.openAI label).body
      ((if system.truthy then .system system :: told else told).map Turn.toValue) =
        told.map Turn.toValue := by
  -- without an instruction the first entry is one of a message, and stays
  split
  · simp [Vendor.body, Turn.toValue, Value.isText]
  · cases h with
    | nil => rfl
    | cons hhead _ =>
      have hrole := isText_role_toValue (ofMessage_ne_system hhead)
      simp [Vendor.body, hrole]

/-- The payload of a conversation says what its messages say. -/
theorem tells_turns {ms : List Message} {system : Value} {entries : List Turn}
    (htyped : ∀ m ∈ ms, m.WellTyped) (hroles : ∀ m ∈ ms, m.IsTurn)
    (h : turns ms system = .ok entries) :
    ∃ told, List.Forall₂ (Tells (.openAI label)) ms told ∧
      Transcript.read (.openAI label) (.list (entries.map Turn.toValue)) = told.flatten := by
  obtain ⟨turns, hmap, h⟩ := Outcome.of_bind_eq_ok h
  cases h
  have hturns := Outcome.mapM_eq_ok_iff.1 hmap
  have hbody := body_entries label system hturns
  refine ⟨turns.map fun turn => Transcript.ofEntry (.openAI label) turn.toValue, ?_, ?_⟩
  · have hms : ∀ m ∈ ms, m.WellTyped ∧ m.IsTurn := fun m hm => ⟨htyped m hm, hroles m hm⟩
    rw [List.forall₂_map_right_iff]
    refine ((List.forall₂_and_left ms turns).2 ⟨hms, hturns⟩).imp ?_
    rintro m turn ⟨⟨hm, hrole⟩, hturn⟩
    exact tells_ofMessage hm hrole hturn
  · rw [Transcript.read, hbody, Transcript.ofEntries, List.flatMap_map]
    rfl

end Parley.OpenAI
