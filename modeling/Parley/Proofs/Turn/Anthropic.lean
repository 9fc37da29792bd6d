import Parley.Anthropic.Turn
import Parley.Proofs.Message.Arguments

/-!
# Turns of the messages service

The entry that each kind of message becomes, and what becomes of it when further entries follow.
Entries are collected with the nearest first, and only the nearest one can still grow: results join
results. An entry with calls never does, so `turns_split` finds it again in the conversation as it
was made.
-/

namespace Parley.Anthropic

/-! ## Entries of messages -/

/-- The block of a call that is made of a call of texts. -/
def ToolUse.ofText (call : TextCall) : ToolUse :=
  ⟨.str call.id, .str call.name, call.fields⟩

/-- The block of a stored call is made of its parts. -/
theorem ToolUse.ofValue_toValue (call : TextCall) :
    ToolUse.ofValue call.toValue =
      (do return ⟨.str call.id, .str call.name, ← call.toCall.argumentFields⟩) :=
  rfl

theorem mapM_toolUse_ofValue {calls : List TextCall} (h : ∀ call ∈ calls, call.WellSpelled) :
    (calls.map TextCall.toValue).mapM ToolUse.ofValue = .ok (calls.map ToolUse.ofText) := by
  refine Outcome.mapM_map_of_ok fun call hcall => ?_
  rw [ToolUse.ofValue_toValue, Outcome.bind_of_ok (h call hcall).argumentFields]
  rfl

/-- Calls have blocks only if their texts are argument texts. -/
theorem wellSpelled_of_mapM {calls : List TextCall} {uses : List ToolUse}
    (h : (calls.map TextCall.toValue).mapM ToolUse.ofValue = .ok uses) :
    ∀ call ∈ calls, call.WellSpelled := by
  intro call hcall
  obtain ⟨x, hx⟩ := Outcome.ok_of_mem_mapM h (List.mem_map_of_mem hcall)
  rw [ToolUse.ofValue_toValue] at hx
  obtain ⟨fields, hfields, -⟩ := Outcome.of_bind_eq_ok hx
  exact TextCall.wellSpelled_of_spells (TextCall.argumentFields_eq_ok_iff.1 hfields)

/-- A user's message becomes its text. -/
theorem ofMessage_user {m : Message} (h : m.hasRole "user" = true) :
    Turn.ofMessage m = .ok (.user (m.content.orElse (.str ""))) := by
  simp only [Turn.ofMessage, h, if_true]
  rfl

/-- An assistant's message without calls becomes its text. -/
theorem ofMessage_plain {m : Message} (h : m.hasRole "assistant" = true)
    (hcalls : m.toolCalls = []) :
    Turn.ofMessage m = .ok (.assistant (m.content.orElse (.str ""))) := by
  have huser : m.hasRole "user" = false := Message.not_hasRole h (by decide)
  simp only [Turn.ofMessage, huser, h, Message.turn_of_no_calls hcalls, Bool.false_eq_true,
    if_true, if_false]
  rfl

/-- With calls it becomes their blocks, behind its text if there is one. -/
theorem ofMessage_calls {m : Message} (h : m.hasRole "assistant" = true)
    (hsome : m.toolCalls ≠ []) :
    Turn.ofMessage m = (do
      return .toolUses (if m.content.truthy then some m.content else none)
        (← m.toolCalls.mapM ToolUse.ofValue)) := by
  have huser : m.hasRole "user" = false := Message.not_hasRole h (by decide)
  simp only [Turn.ofMessage, huser, h, Message.turn_of_calls hsome, Bool.false_eq_true, if_true,
    if_false]

theorem ofMessage_calling {m : Message} {calls : List TextCall} (h : m.hasRole "assistant" = true)
    (hcalls : m.toolCalls = calls.map TextCall.toValue) (hsome : calls ≠ []) :
    Turn.ofMessage m = (do
      return .toolUses (if m.content.truthy then some m.content else none)
        (← (calls.map TextCall.toValue).mapM ToolUse.ofValue)) := by
  rw [ofMessage_calls h (by simpa [hcalls] using hsome), hcalls]

/-- A result becomes a block that names the call. -/
theorem ofMessage_result {m : Message} (h : m.hasRole "tool" = true) :
    Turn.ofMessage m =
      (do return .results [⟨← m.requireAnsweredId, m.content.orElse (.str "")⟩]) := by
  have huser : m.hasRole "user" = false := Message.not_hasRole h (by decide)
  have hassistant : m.hasRole "assistant" = false := Message.not_hasRole h (by decide)
  simp only [Turn.ofMessage, huser, hassistant, Bool.false_eq_true, if_false]

/-! ## Where they stand -/

/-- Calls are put into an entry of their own. -/
theorem push_toolUses (before : List Turn) (text : Option Value) (uses : List ToolUse) :
    push before (.toolUses text uses) = .ok (.toolUses text uses :: before) := by
  cases before <;> rfl

/-- Adding an entry leaves an entry with calls, and those before it, where they are. -/
theorem push_keeps {earlier before after : List Turn} {text : Option Value} {uses : List ToolUse}
    {turn : Turn} (hkept : Turn.toolUses text uses :: earlier <:+ before)
    (h : push before turn = .ok after) : Turn.toolUses text uses :: earlier <:+ after := by
  cases before with
  | nil => cases List.suffix_nil.1 hkept
  | cons last rest =>
    have happend : Turn.toolUses text uses :: earlier <:+ turn :: last :: rest :=
      hkept.trans (List.suffix_cons _ _)
    obtain ⟨after?, hafter, h⟩ := Outcome.of_bind_eq_ok h
    cases after? with
    | none =>
      cases h
      exact happend
    | some blocks =>
      obtain ⟨last?, hlast, h⟩ := Outcome.of_bind_eq_ok h
      cases last? with
      | none =>
        cases h
        exact happend
      | some others =>
        -- The nearest entry grows, so it holds results and is not the one with calls.
        cases h
        rcases List.suffix_cons_iff.1 hkept with heq | hrest
        · cases heq
          cases hlast
        · exact hrest.trans (List.suffix_cons _ _)

/-- What stands behind calls does not change them. -/
theorem turnsAfter_keeps {earlier before after : List Turn} {text : Option Value}
    {uses : List ToolUse} {ms : List Message}
    (hkept : Turn.toolUses text uses :: earlier <:+ before) (h : turnsAfter before ms = .ok after) :
    Turn.toolUses text uses :: earlier <:+ after := by
  induction ms generalizing before with
  | nil =>
    cases h
    exact hkept
  | cons m rest ih =>
    obtain ⟨turn, -, h⟩ := Outcome.of_bind_eq_ok h
    obtain ⟨next, hnext, h⟩ := Outcome.of_bind_eq_ok h
    exact ih (push_keeps hkept hnext) h

/-- Messages are converted one after the other. -/
theorem turnsAfter_append (before : List Turn) (ms later : List Message) :
    turnsAfter before (ms ++ later) = (do turnsAfter (← turnsAfter before ms) later) := by
  induction ms generalizing before with
  | nil => rfl
  | cons m rest ih => simp only [List.cons_append, turnsAfter, ih, bind_assoc]

/-- The entry of a message with calls stands behind the entries of the messages before it. -/
theorem turns_split {before later : List Message} {m : Message} {entries : List Turn}
    {text : Option Value} {uses : List ToolUse} (hm : Turn.ofMessage m = .ok (.toolUses text uses))
    (h : turns (before ++ m :: later) = .ok entries) :
    ∃ earlier rest, turns before = .ok earlier ∧
      entries = earlier ++ .toolUses text uses :: rest := by
  obtain ⟨after, hafter, h⟩ := Outcome.of_bind_eq_ok h
  cases h
  rw [turnsAfter_append] at hafter
  obtain ⟨earlier, hearlier, hafter⟩ := Outcome.of_bind_eq_ok hafter
  rw [turnsAfter, Outcome.bind_of_ok hm, Outcome.bind_of_ok (push_toolUses _ _ _)] at hafter
  -- the entries are listed with the nearest first, so those before it are a suffix
  obtain ⟨nearer, rfl⟩ := turnsAfter_keeps (List.suffix_refl _) hafter
  refine ⟨earlier.reverse, nearer.reverse, ?_, by simp⟩
  rw [turns, Outcome.bind_of_ok hearlier]
  rfl

/-- The calls of a message have an entry behind the entries of the messages before it. -/
theorem turns_split_calls {before later : List Message} {m : Message} {entries : List Turn}
    (hrole : m.hasRole "assistant" = true) (hsome : m.toolCalls ≠ [])
    (h : turns (before ++ m :: later) = .ok entries) :
    ∃ earlier uses rest, turns before = .ok earlier ∧
      m.toolCalls.mapM ToolUse.ofValue = .ok uses ∧
      entries =
        earlier ++ .toolUses (if m.content.truthy then some m.content else none) uses :: rest := by
  obtain ⟨after, hafter, -⟩ := Outcome.of_bind_eq_ok h
  rw [turnsAfter_append] at hafter
  obtain ⟨reached, -, hafter⟩ := Outcome.of_bind_eq_ok hafter
  obtain ⟨turn, hturn, -⟩ := Outcome.of_bind_eq_ok hafter
  have hmessage := hturn
  rw [ofMessage_calls hrole hsome] at hturn
  obtain ⟨uses, huses, hturn⟩ := Outcome.of_bind_eq_ok hturn
  cases hturn
  obtain ⟨earlier, rest, hearlier, hentries⟩ := turns_split hmessage h
  exact ⟨earlier, uses, rest, hearlier, huses, hentries⟩

end Parley.Anthropic
