import Parley.Proofs.Transcript.Basic
import Parley.Proofs.Turn.Anthropic

/-!
# Transcripts of the messages service

Results that follow one another share an entry, so a transcript is read off the whole list of
entries and not message by message. What keeps it right is that joining an entry to the last one
changes the entries and not the items in them: `push_items` is the step, `tells_turnsAfter` the run.
-/

namespace Parley.Anthropic

/-! ## Entries -/

def Turn.items (turn : Turn) : List Item :=
  Transcript.ofEntry .anthropic turn.toValue

theorem items_user (text : String) :
    (Turn.user (.str text)).items = [⟨.str "user", .text (.str text)⟩] := by
  simp [Turn.items, Transcript.ofEntry, Vendor.readParts, readParts, Turn.toValue, Turn.content,
    Turn.role]

theorem items_assistant (text : String) :
    (Turn.assistant (.str text)).items = [⟨.str "assistant", .text (.str text)⟩] := by
  simp [Turn.items, Transcript.ofEntry, Vendor.readParts, readParts, Turn.toValue, Turn.content,
    Turn.role]

def ToolUse.part (use : ToolUse) : Part :=
  .call (some use.id) use.name (.dict use.input)

def ToolResult.part (result : ToolResult) : Part :=
  .result (.str result.callId) result.content

theorem readBlock_toolUse (use : ToolUse) : readBlock use.toValue = use.part := by
  simp [readBlock, ToolUse.toValue, ToolUse.part, Value.isText]

theorem readBlock_result (result : ToolResult) : readBlock result.toValue = result.part := by
  simp [readBlock, ToolResult.toValue, ToolResult.part, Value.isText]

theorem readBlock_text (text : Value) : readBlock (textBlock text) = .text text := by
  simp [readBlock, textBlock, Value.isText]

/-- The items of a turn with calls are the text, if there is one, and the calls. -/
theorem items_toolUses (text : Option Value) (uses : List ToolUse) :
    (Turn.toolUses text uses).items =
      ((text.map Part.text).toList ++ uses.map ToolUse.part).map (Item.mk (.str "assistant")) := by
  have huses : (uses.map ToolUse.toValue).map readBlock = uses.map ToolUse.part := by
    rw [List.map_map]
    exact List.map_congr_left fun use _ => readBlock_toolUse use
  cases text <;>
    simp [Turn.items, Transcript.ofEntry, Vendor.readParts, readParts, Turn.toValue, Turn.content,
      Turn.role, huses, readBlock_text]

theorem readParts_results (results : List ToolResult) :
    Vendor.anthropic.readParts (Turn.results results).toValue = results.map ToolResult.part := by
  have hresults : (results.map ToolResult.toValue).map readBlock = results.map ToolResult.part := by
    rw [List.map_map]
    exact List.map_congr_left fun result _ => readBlock_result result
  simp [Vendor.readParts, readParts, Turn.toValue, Turn.content, hresults]

/-- The items of a turn of results are the results, all of them the user's. -/
theorem items_results (results : List ToolResult) :
    (Turn.results results).items =
      results.map fun result => ⟨.str "user", result.part⟩ := by
  rw [Turn.items, Transcript.ofEntry, readParts_results]
  simp [Turn.toValue, Turn.role]

/-! ## Messages -/

/-- Calls are told with their ids, their names and their arguments. -/
theorem tells_calls {calls : List TextCall} (h : ∀ call ∈ calls, call.WellSpelled) :
    List.Forall₂ (TellsCall .anthropic) calls ((calls.map ToolUse.ofText).map ToolUse.part) := by
  rw [List.map_map, List.forall₂_map_right_iff]
  exact List.forall₂_same.2 fun call hcall => ⟨call.fields, (h call hcall).argumentFields, rfl⟩

/-- An entry whose text, if it is a user's, is one. A user's content that is a list of blocks could
pass for results. -/
def Turn.Plain (turn : Turn) : Prop :=
  ∀ blocks, turn ≠ .user (.list blocks)

/-- A text is told if it counts as something. -/
theorem option_text_parts {m : Message} (h : m.content.IsOptionalText) :
    ((if m.content.truthy then some m.content else none).map Part.text).toList = m.textParts := by
  rw [h.some_if_truthy, Message.textParts, Message.text]
  split <;> rfl

/-- An entry says what its message says. -/
theorem tells_ofMessage {m : Message} {turn : Turn} (hm : m.WellTyped) (hrole : m.IsTurn)
    (h : Turn.ofMessage m = .ok turn) : Tells .anthropic m turn.items ∧ turn.Plain := by
  have hcontent : m.content.orElse (.str "") = .str m.text := hm.content.orElse_empty
  rcases hrole with huser | hassistant | htool
  · rw [ofMessage_user huser, hcontent] at h
    cases h
    rw [items_user]
    exact ⟨.user huser, by rintro _ ⟨⟩⟩
  -- the entry exists, so all argument texts could be decoded
  · obtain ⟨calls, hcalls⟩ := hm.toolCalls
    by_cases hnone : calls = []
    · have hcalls : m.toolCalls = [] := by rw [hcalls, hnone]; rfl
      rw [ofMessage_plain hassistant hcalls, hcontent] at h
      cases h
      rw [items_assistant]
      exact ⟨.plain hassistant hcalls, by rintro _ ⟨⟩⟩
    · rw [ofMessage_calling hassistant hcalls hnone] at h
      obtain ⟨uses, huses, h⟩ := Outcome.of_bind_eq_ok h
      have hspelled := wellSpelled_of_mapM huses
      rw [mapM_toolUse_ofValue hspelled] at huses
      cases huses
      cases h
      rw [items_toolUses, option_text_parts hm.content]
      exact ⟨.calling hassistant hcalls hnone (tells_calls hspelled), by rintro _ ⟨⟩⟩
  · rw [ofMessage_result htool, hcontent] at h
    obtain ⟨id, hid, h⟩ := Outcome.of_bind_eq_ok h
    cases h
    rw [(hm.requireAnsweredId_eq_ok_iff.1 hid).2, items_results]
    exact ⟨.result htool rfl, by rintro _ ⟨⟩⟩

/-! ## Joining entries -/

/-- The items of entries that are listed with the nearest first. -/
def itemsOf (before : List Turn) : List Item :=
  before.reverse.flatMap Turn.items

/-- The items of turns are those of the earlier ones, and then those of the last. -/
theorem itemsOf_cons (turn : Turn) (before : List Turn) :
    itemsOf (turn :: before) = itemsOf before ++ turn.items := by
  simp [itemsOf]

/-- Of plain turns only results have result blocks. -/
theorem resultBlocks_of_plain {turn : Turn} {blocks : Option (List Value)} (hp : turn.Plain)
    (h : turn.resultBlocks? = .ok blocks) :
    blocks = none ∨ ∃ results, turn = .results results := by
  cases turn with
  | user content =>
    cases content with
    -- a content that is a list would be joined with
    | list blocks => exact absurd rfl (hp blocks)
    | _ =>
      cases h
      exact .inl rfl
  | results results => exact .inr ⟨results, rfl⟩
  | _ =>
    cases h
    exact .inl rfl

/-- Whether a plain turn has result blocks can be told. -/
theorem exists_resultBlocks {turn : Turn} (hp : turn.Plain) :
    ∃ blocks, turn.resultBlocks? = .ok blocks := by
  cases turn with
  | user content =>
    cases content with
    -- of a list it would have to be told whether its items are results
    | list blocks => exact absurd rfl (hp blocks)
    | _ => exact ⟨_, rfl⟩
  | _ => exact ⟨_, rfl⟩

/-- A plain turn can be put behind plain turns. -/
theorem exists_push {before : List Turn} {turn : Turn} (hbefore : ∀ t ∈ before, t.Plain)
    (hturn : turn.Plain) : ∃ after, push before turn = .ok after := by
  cases before with
  | nil => exact ⟨_, rfl⟩
  | cons last earlier =>
    rcases exists_resultBlocks hturn with ⟨new, hnew⟩
    rcases exists_resultBlocks (hbefore last List.mem_cons_self) with ⟨old, hold⟩
    rw [push, Outcome.bind_of_ok hnew]
    cases new with
    | none => exact ⟨_, rfl⟩
    | some blocks =>
      simp only [Outcome.bind_of_ok hold]
      cases old with
      | none => exact ⟨_, rfl⟩
      | some others => exact ⟨_, rfl⟩

/-- An entry is added to those before it, or joined to the nearest one if both hold results. -/
theorem push_cases {before after : List Turn} {turn : Turn} (hbefore : ∀ t ∈ before, t.Plain)
    (hturn : turn.Plain) (h : push before turn = .ok after) :
    after = turn :: before ∨ ∃ old new earlier, before = .results old :: earlier ∧
      turn = .results new ∧ after = .results (old ++ new) :: earlier := by
  cases before with
  | nil =>
    cases h
    exact .inl rfl
  | cons last earlier =>
    obtain ⟨after?, hafter, h⟩ := Outcome.of_bind_eq_ok h
    rcases resultBlocks_of_plain hturn hafter with rfl | ⟨new, rfl⟩
    · cases h
      exact .inl rfl
    · cases hafter
      obtain ⟨last?, hlast, h⟩ := Outcome.of_bind_eq_ok h
      rcases resultBlocks_of_plain (hbefore last (by simp)) hlast with rfl | ⟨old, rfl⟩
      · cases h
        exact .inl rfl
      · cases hlast
        cases h
        exact .inr ⟨old, new, earlier, rfl, rfl, rfl⟩

theorem push_plain {before after : List Turn} {turn : Turn} (hbefore : ∀ t ∈ before, t.Plain)
    (hturn : turn.Plain) (h : push before turn = .ok after) : ∀ t ∈ after, t.Plain := by
  rcases push_cases hbefore hturn h with rfl | ⟨old, new, earlier, rfl, rfl, rfl⟩
  · exact List.forall_mem_cons.2 ⟨hturn, hbefore⟩
  · refine List.forall_mem_cons.2 ⟨by rintro _ ⟨⟩, ?_⟩
    exact fun t ht => hbefore t (by simp [ht])

/-- Adding an entry adds its items, whether it is joined to the last entry or not. -/
theorem push_items {before after : List Turn} {turn : Turn} (hbefore : ∀ t ∈ before, t.Plain)
    (hturn : turn.Plain) (h : push before turn = .ok after) :
    itemsOf after = itemsOf before ++ turn.items := by
  rcases push_cases hbefore hturn h with rfl | ⟨old, new, earlier, rfl, rfl, rfl⟩
  · exact itemsOf_cons turn before
  · -- Both entries hold results: the one case in which the last entry grows.
    simp [itemsOf_cons, items_results]

/-- The entries of messages add what the messages say. -/
theorem tells_turnsAfter {ms : List Message} {before after : List Turn}
    (hbefore : ∀ t ∈ before, t.Plain) (htyped : ∀ m ∈ ms, m.WellTyped)
    (hroles : ∀ m ∈ ms, m.IsTurn) (h : turnsAfter before ms = .ok after) :
    ∃ told, List.Forall₂ (Tells .anthropic) ms told ∧
      itemsOf after = itemsOf before ++ told.flatten := by
  -- what is told so far is the invariant: its items, and that no user entry is a list
  induction ms generalizing before with
  | nil =>
    cases h
    exact ⟨[], .nil, by simp⟩
  | cons m rest ih =>
    obtain ⟨turn, hturn, h⟩ := Outcome.of_bind_eq_ok h
    obtain ⟨next, hnext, h⟩ := Outcome.of_bind_eq_ok h
    obtain ⟨htells, hplain⟩ := tells_ofMessage (htyped m (by simp)) (hroles m (by simp)) hturn
    have hitems := push_items hbefore hplain hnext
    have hall := push_plain hbefore hplain hnext
    obtain ⟨told, htold, hrest⟩ := ih hall (fun x hx => htyped x (by simp [hx]))
      (fun x hx => hroles x (by simp [hx])) h
    exact ⟨turn.items :: told, .cons htells htold, by simp [hrest, hitems]⟩

/-- The payload of a conversation says what its messages say. -/
theorem tells_turns {ms : List Message} {entries : List Turn} (htyped : ∀ m ∈ ms, m.WellTyped)
    (hroles : ∀ m ∈ ms, m.IsTurn) (h : turns ms = .ok entries) :
    ∃ told, List.Forall₂ (Tells .anthropic) ms told ∧
      Transcript.read .anthropic (.list (entries.map Turn.toValue)) = told.flatten := by
  obtain ⟨after, hafter, h⟩ := Outcome.of_bind_eq_ok h
  cases h
  obtain ⟨told, htold, hitems⟩ := tells_turnsAfter (by simp) htyped hroles hafter
  refine ⟨told, htold, ?_⟩
  have hread : Transcript.read .anthropic (.list (after.reverse.map Turn.toValue)) =
      itemsOf after := by
    rw [Transcript.read, Transcript.ofEntries, Vendor.body, List.flatMap_map]
    · rfl
    · simp
  rw [hread, hitems]
  rfl

end Parley.Anthropic
