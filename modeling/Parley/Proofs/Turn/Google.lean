import Parley.Google.Turn
import Parley.Proofs.Message.Arguments

/-!
# Turns of content generation

The entry that each kind of message becomes, and what becomes of it when further entries follow. A
result is addressed by a function's name, looked up in the messages before it unless the message
brings one.
-/

namespace Parley.Google

/-! ## Entries of messages -/

/-- The part of a call that is made of a call of texts. -/
def FunctionCall.ofText (call : TextCall) : FunctionCall :=
  ⟨.str call.name, call.fields⟩

/-- The part of a stored call is made of its name and its arguments. -/
theorem FunctionCall.ofValue_toValue (call : TextCall) :
    FunctionCall.ofValue call.toValue =
      (do return ⟨.str call.name, ← call.toCall.argumentFields⟩) :=
  rfl

theorem mapM_functionCall_ofValue {calls : List TextCall} (h : ∀ call ∈ calls, call.WellSpelled) :
    (calls.map TextCall.toValue).mapM FunctionCall.ofValue =
      .ok (calls.map FunctionCall.ofText) := by
  refine Outcome.mapM_map_of_ok fun call hcall => ?_
  rw [FunctionCall.ofValue_toValue, Outcome.bind_of_ok (h call hcall).argumentFields]
  rfl

/-- Calls have parts only if their texts are argument texts. -/
theorem wellSpelled_of_mapM {calls : List TextCall} {made : List FunctionCall}
    (h : (calls.map TextCall.toValue).mapM FunctionCall.ofValue = .ok made) :
    ∀ call ∈ calls, call.WellSpelled := by
  intro call hcall
  obtain ⟨x, hx⟩ := Outcome.ok_of_mem_mapM h (List.mem_map_of_mem hcall)
  rw [FunctionCall.ofValue_toValue] at hx
  obtain ⟨fields, hfields, -⟩ := Outcome.of_bind_eq_ok hx
  exact TextCall.wellSpelled_of_spells (TextCall.argumentFields_eq_ok_iff.1 hfields)

/-- A user's message becomes its text. -/
theorem ofMessage_user {m : Message} (seen : List Message) (h : m.hasRole "user" = true) :
    Turn.ofMessage seen m = .ok (.user (m.content.orElse (.str ""))) := by
  simp only [Turn.ofMessage, h, if_true]
  rfl

/-- An assistant's message without calls becomes its text. -/
theorem ofMessage_plain {m : Message} (seen : List Message) (h : m.hasRole "assistant" = true)
    (hcalls : m.toolCalls = []) :
    Turn.ofMessage seen m = .ok (.model (m.content.orElse (.str ""))) := by
  have huser : m.hasRole "user" = false := Message.not_hasRole h (by decide)
  simp only [Turn.ofMessage, huser, h, Message.turn_of_no_calls hcalls, Bool.false_eq_true,
    if_true, if_false]
  rfl

/-- With calls it becomes their parts, behind its text if there is one. -/
theorem ofMessage_calls {m : Message} (seen : List Message) (h : m.hasRole "assistant" = true)
    (hsome : m.toolCalls ≠ []) :
    Turn.ofMessage seen m = (do
      return .calls (if m.content.truthy then some m.content else none)
        (← m.toolCalls.mapM FunctionCall.ofValue)) := by
  have huser : m.hasRole "user" = false := Message.not_hasRole h (by decide)
  simp only [Turn.ofMessage, huser, h, Message.turn_of_calls hsome, Bool.false_eq_true, if_true,
    if_false]

theorem ofMessage_calling {m : Message} {calls : List TextCall} (seen : List Message)
    (h : m.hasRole "assistant" = true) (hcalls : m.toolCalls = calls.map TextCall.toValue)
    (hsome : calls ≠ []) :
    Turn.ofMessage seen m = (do
      return .calls (if m.content.truthy then some m.content else none)
        (← (calls.map TextCall.toValue).mapM FunctionCall.ofValue)) := by
  rw [ofMessage_calls seen h (by simpa [hcalls] using hsome), hcalls]

/-- A result becomes a response under the name that it answers. -/
theorem ofMessage_result {m : Message} (seen : List Message) (h : m.hasRole "tool" = true) :
    Turn.ofMessage seen m = (do
      let name ← answeredName seen m
      return .responses [⟨name, ← responseFields m.content⟩]) := by
  have huser : m.hasRole "user" = false := Message.not_hasRole h (by decide)
  have hassistant : m.hasRole "assistant" = false := Message.not_hasRole h (by decide)
  simp only [Turn.ofMessage, huser, hassistant, Bool.false_eq_true, if_false]

/-! ## Where they stand -/

/-- Calls are put into an entry of their own. -/
theorem push_calls (before : List Turn) (text : Option Value) (made : List FunctionCall) :
    push before (.calls text made) = .calls text made :: before := by
  unfold push
  split
  · rename_i heq
    cases heq
  · rfl

/-- Adding an entry leaves an entry with calls, and those before it, where they are. -/
theorem push_keeps {earlier before : List Turn} {text : Option Value} {made : List FunctionCall}
    (turn : Turn) (hkept : Turn.calls text made :: earlier <:+ before) :
    Turn.calls text made :: earlier <:+ push before turn := by
  unfold push
  split
  · -- The nearest entry grows, so it holds results and is not the one with calls.
    rcases List.suffix_cons_iff.1 hkept with heq | hrest
    · cases heq
    · exact hrest.trans (List.suffix_cons _ _)
  · exact hkept.trans (List.suffix_cons _ _)

/-- What stands behind calls does not change them. -/
theorem turnsAfter_keeps {earlier before after : List Turn} {text : Option Value}
    {made : List FunctionCall} {seen ms : List Message}
    (hkept : Turn.calls text made :: earlier <:+ before)
    (h : turnsAfter seen before ms = .ok after) : Turn.calls text made :: earlier <:+ after := by
  induction ms generalizing seen before with
  | nil =>
    cases h
    exact hkept
  | cons m rest ih =>
    obtain ⟨turn, -, h⟩ := Outcome.of_bind_eq_ok h
    exact ih (push_keeps turn hkept) h

/-- Messages are converted one after the other, each behind those that were seen. -/
theorem turnsAfter_append (seen : List Message) (before : List Turn) (ms later : List Message) :
    turnsAfter seen before (ms ++ later) =
      (do turnsAfter (seen ++ ms) (← turnsAfter seen before ms) later) := by
  induction ms generalizing seen before with
  | nil =>
    rw [List.append_nil]
    rfl
  | cons m rest ih =>
    simp only [List.cons_append, turnsAfter, ih, bind_assoc, List.append_assoc, List.nil_append]

/-- The entry of a message with calls stands behind the entries of the messages before it. -/
theorem turns_split {before later : List Message} {m : Message} {entries : List Turn}
    {text : Option Value} {made : List FunctionCall}
    (hm : Turn.ofMessage before m = .ok (.calls text made))
    (h : turns (before ++ m :: later) = .ok entries) :
    ∃ earlier rest, turns before = .ok earlier ∧ entries = earlier ++ .calls text made :: rest := by
  obtain ⟨after, hafter, h⟩ := Outcome.of_bind_eq_ok h
  cases h
  rw [turnsAfter_append] at hafter
  obtain ⟨earlier, hearlier, hafter⟩ := Outcome.of_bind_eq_ok hafter
  rw [List.nil_append, turnsAfter, Outcome.bind_of_ok hm, push_calls] at hafter
  -- the entries are listed with the nearest first, so those before it are a suffix
  obtain ⟨nearer, rfl⟩ := turnsAfter_keeps (List.suffix_refl _) hafter
  refine ⟨earlier.reverse, nearer.reverse, ?_, by simp⟩
  rw [turns, Outcome.bind_of_ok hearlier]
  rfl

/-- The calls of a message have an entry behind the entries of the messages before it. -/
theorem turns_split_calls {before later : List Message} {m : Message} {entries : List Turn}
    (hrole : m.hasRole "assistant" = true) (hsome : m.toolCalls ≠ [])
    (h : turns (before ++ m :: later) = .ok entries) :
    ∃ earlier made rest, turns before = .ok earlier ∧
      m.toolCalls.mapM FunctionCall.ofValue = .ok made ∧
      entries =
        earlier ++ .calls (if m.content.truthy then some m.content else none) made :: rest := by
  obtain ⟨after, hafter, -⟩ := Outcome.of_bind_eq_ok h
  rw [turnsAfter_append] at hafter
  obtain ⟨reached, -, hafter⟩ := Outcome.of_bind_eq_ok hafter
  obtain ⟨turn, hturn, -⟩ := Outcome.of_bind_eq_ok hafter
  rw [List.nil_append] at hturn
  have hmessage := hturn
  rw [ofMessage_calls before hrole hsome] at hturn
  obtain ⟨made, hmade, hturn⟩ := Outcome.of_bind_eq_ok hturn
  cases hturn
  obtain ⟨earlier, rest, hearlier, hentries⟩ := turns_split hmessage h
  exact ⟨earlier, made, rest, hearlier, hmade, hentries⟩

end Parley.Google
