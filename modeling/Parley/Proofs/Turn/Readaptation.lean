import Parley.Proofs.Message.Plain
import Parley.Proofs.Payload
import Parley.Proofs.Tool.JsonSchema
import Parley.Proofs.Turn.Reports

/-!
# Adapting a payload again

The entries of a chat completion are messages in plain form, and so are its tools. Taken for a
conversation of their own they are carried to the same entries and the same tools, so adapting twice
is adapting once.

* `ReadsBack`: an entry is read as a message that has this very entry;
* `exists_readsBack`, `exists_readBacks`: every entry of a conversation is;
* `Payload.adapt_adapted`: a payload is adapted to itself.
-/

namespace Parley

/-! ## What names functions -/

def Message.NamesFunctions (m : Message) : Prop :=
  ∀ call : TextCall, call.toValue ∈ m.toolCalls → call.name ≠ ""

/-- A tool that has a name, and a text for its description. -/
structure ToolSchema.Described (tool : ToolSchema) : Prop where
  named : tool.name.truthy = true
  description : ∃ text, tool.description = .str text

/-- All tools that a value gives have names and texts for their descriptions. -/
def Value.DescribesTools (tools : Value) : Prop :=
  ∀ raws, tools.items = .ok raws → ∀ raw ∈ raws, ∀ tool,
    ToolSchema.ofValue raw = .ok tool → tool.Described

namespace OpenAI

/-! ## Reading entries -/

/-- A call with the argument text that it is sent with. -/
def sent (call : TextCall) : TextCall :=
  { call with arguments := if call.arguments = "" then "{}" else call.arguments }

/-- A call is sent in the form in which it was sent before. -/
theorem ofText_sent (call : TextCall) : Call.ofText (sent call) = Call.ofText call := by
  by_cases h : call.arguments = "" <;> simp [Call.ofText, sent, h]

/-- The call of an entry is read as the call that it is sent as. -/
theorem ofValue_ofText {call : TextCall} (hnamed : call.name ≠ "") :
    ToolCall.ofValue (Call.ofText call).toValue = .ok (sent call).toCall := by
  have hfunction : (Call.ofText call).toValue.get "function" =
      .ok (.dict [("name", .str call.name), ("arguments", .str (sent call).arguments)]) := rfl
  have hname : ToolCall.plainName (Call.ofText call).toValue
      (.dict [("name", .str call.name), ("arguments", .str (sent call).arguments)]) =
        .ok (.str call.name) := rfl
  have harguments : ToolCall.plainArguments (Call.ofText call).toValue
      (.dict [("name", .str call.name), ("arguments", .str (sent call).arguments)]) =
        .ok (.str (sent call).arguments) := rfl
  have hid : (Call.ofText call).toValue.get "id" = .ok (.str call.id) := rfl
  have hread := ToolCall.ofValue_dict hfunction hname (Value.truthy_str.2 hnamed) harguments rfl hid
  rw [Value.orElse_empty_str] at hread
  exact hread rfl

/-- An entry with calls is read back as a message that makes them. -/
theorem ofValue_calls (text : Value) {calls : List TextCall} (hsome : calls ≠ [])
    (hnamed : ∀ call ∈ calls, call.name ≠ "") :
    Message.ofValue (Turn.calls text (calls.map Call.ofText)).toValue =
      .ok { role := .str "assistant", content := text,
            toolCalls := (calls.map sent).map TextCall.toValue } := by
  have hgiven : (Turn.calls text (calls.map Call.ofText)).toValue.getEither
      "tool_calls" "toolCalls" = .ok (.list ((calls.map Call.ofText).map Call.toValue)) := rfl
  have hitems : ((Value.list ((calls.map Call.ofText).map Call.toValue)).orElse (.list [])).items =
      .ok ((calls.map Call.ofText).map Call.toValue) := by
    simp [Value.orElse, Value.truthy, hsome, Value.items]
  have hcalls : ((calls.map Call.ofText).map Call.toValue).mapM ToolCall.ofValue =
      .ok (calls.map fun call => (sent call).toCall) := by
    rw [List.map_map]
    exact Outcome.mapM_map_of_ok fun call hcall => ofValue_ofText (hnamed call hcall)
  have hback : Message.ofValue (Turn.calls text (calls.map Call.ofText)).toValue =
      .ok { role := .str "assistant", content := text,
            toolCalls := (calls.map fun call => (sent call).toCall).map ToolCall.toValue } :=
    Message.ofValue_dict hgiven hitems hcalls rfl rfl rfl rfl rfl rfl
  rw [List.map_map] at hback ⊢
  exact hback

/-- An entry is read as a message that is no system message, that has this entry, and that passes
where the message of the entry passed. -/
structure ReadsBack (m : Message) (turn : Turn) (back : Message) : Prop where
  read : Message.ofValue turn.toValue = .ok back
  turned : Turn.ofMessage back = .ok turn
  spoken : back.hasRole "system" = false
  passes : ∀ (position place : Nat) (known next : List String),
    Conversation.checkMessage position known m = .ok next →
      Conversation.checkMessage place known back = .ok next

/-- A user's message is read back from its entry. -/
theorem exists_readsBack_user {m : Message} {turn : Turn} (htyped : m.WellTyped)
    (hrole : m.hasRole "user" = true) (h : Turn.ofMessage m = .ok turn) :
    ∃ back, ReadsBack m turn back := by
  rw [ofMessage_user hrole, htyped.content.orElse_empty] at h
  cases h
  refine ⟨{ role := .str "user", content := .str m.content.textOrEmpty }, rfl, ?_, rfl, ?_⟩
  · rw [ofMessage_user rfl, Value.orElse_empty_str]
  · intro position place known next hpass
    rw [(Conversation.known_of_not_assistant hpass (Message.not_hasRole hrole (by decide))).2]
    exact Conversation.checkMessage_of_user place known rfl rfl

/-- A result is read back from its entry. -/
theorem exists_readsBack_result {m : Message} {turn : Turn} (htyped : m.WellTyped)
    (hrole : m.hasRole "tool" = true) (h : Turn.ofMessage m = .ok turn) :
    ∃ back, ReadsBack m turn back := by
  rw [ofMessage_result hrole, htyped.content.orElse_empty] at h
  obtain ⟨id, hid, h⟩ := Outcome.of_bind_eq_ok h
  cases h
  have husable := htyped.usableId hid
  obtain ⟨hsome, rfl⟩ := htyped.requireAnsweredId_eq_ok_iff.1 hid
  -- what is read is a report under the id without its blanks
  refine ⟨(Report.mk m.answered m.text).toMessage, rfl, ofMessage_report husable, rfl, ?_⟩
  intro position place known next hpass
  obtain ⟨-, hknown⟩ :=
    Conversation.known_of_not_assistant hpass (Message.not_hasRole hrole (by decide))
  obtain ⟨-, -, ids, answered, -, hanswered, hmem, hnext⟩ :=
    Conversation.checkMessage_eq_ok_iff.1 hpass
  rw [← hnext, hknown] at hmem
  rw [Conversation.answeredId, if_pos hrole, htyped.answeredId] at hanswered
  cases hanswered
  rw [hknown]
  exact Conversation.checkMessage_of_report place husable (hmem.resolve_left hsome)

/-- An assistant's message is read back from its entry, with its calls if they have names. -/
theorem exists_readsBack_assistant {m : Message} {turn : Turn} (htyped : m.WellTyped)
    (hnamed : m.NamesFunctions) (hrole : m.hasRole "assistant" = true)
    (h : Turn.ofMessage m = .ok turn) : ∃ back, ReadsBack m turn back := by
  obtain ⟨calls, hcalls⟩ := htyped.toolCalls
  have hids : ∀ (position : Nat) (known next : List String),
      Conversation.checkMessage position known m = .ok next →
        next = known ++ (calls.map TextCall.id).filter (· ≠ "") := by
    intro position known next hpass
    rw [Conversation.checkMessage_of_calls position known hrole hcalls] at hpass
    cases hpass
    rfl
  by_cases hnone : calls = []
  · subst hnone
    rw [ofMessage_plain hrole hcalls, htyped.content.orElse_empty] at h
    cases h
    refine ⟨{ role := .str "assistant", content := .str m.content.textOrEmpty }, rfl, ?_, rfl, ?_⟩
    · rw [ofMessage_plain rfl rfl, Value.orElse_empty_str]
    · intro position place known next hpass
      rw [hids position known next hpass]
      exact Conversation.checkMessage_of_calls place known rfl rfl
  · rw [ofMessage_calling hrole hcalls hnone] at h
    cases h
    have hnamed : ∀ call ∈ calls, call.name ≠ "" := by
      intro call hcall
      exact hnamed call (hcalls ▸ List.mem_map_of_mem hcall)
    have hsent : calls.map sent ≠ [] := by simpa using hnone
    refine ⟨_, ofValue_calls _ hnone hnamed, ?_, rfl, ?_⟩
    · have hcontent : (m.content.orElse .null).orElse .null = m.content.orElse .null := by
        by_cases htruthy : m.content.truthy = true <;> simp [Value.orElse, htruthy]
      have htext : (calls.map sent).map Call.ofText = calls.map Call.ofText := by
        rw [List.map_map]
        exact List.map_congr_left fun call _ => ofText_sent call
      rw [ofMessage_calling rfl rfl hsent, hcontent, htext]
    · intro position place known next hpass
      have hsame : (calls.map sent).map TextCall.id = calls.map TextCall.id := by
        rw [List.map_map]
        rfl
      rw [hids position known next hpass, ← hsame]
      exact Conversation.checkMessage_of_calls place known rfl rfl

/-- The entry of a turn is read as a message that has this entry. -/
theorem exists_readsBack {m : Message} {turn : Turn} (htyped : m.WellTyped)
    (hnamed : m.NamesFunctions) (hturn : m.IsTurn) (h : Turn.ofMessage m = .ok turn) :
    ∃ back, ReadsBack m turn back := by
  rcases hturn with huser | hassistant | htool
  · exact exists_readsBack_user htyped huser h
  · exact exists_readsBack_assistant htyped hnamed hassistant h
  · exact exists_readsBack_result htyped htool h

/-- The entries of turns are read as messages that have these entries and pass the check. -/
theorem exists_readBacks {position : Nat} {known : List String} {ms : List Message}
    {turns : List Turn} (htyped : ∀ m ∈ ms, m.WellTyped) (hnamed : ∀ m ∈ ms, m.NamesFunctions)
    (hroles : ∀ m ∈ ms, m.IsTurn) (hcheck : Conversation.checkFrom position known ms = .ok ())
    (h : ms.mapM Turn.ofMessage = .ok turns) :
    ∃ backs, (turns.map Turn.toValue).mapM Message.ofValue = .ok backs ∧
      backs.mapM Turn.ofMessage = .ok turns ∧ (∀ back ∈ backs, back.hasRole "system" = false) ∧
      ∀ place, Conversation.checkFrom place known backs = .ok () := by
  induction ms generalizing position known turns with
  | nil =>
    cases h
    exact ⟨[], rfl, rfl, by simp, fun _ => rfl⟩
  | cons m rest ih =>
    obtain ⟨next, hpass, hcheck⟩ := Outcome.of_bind_eq_ok hcheck
    rw [List.mapM_cons] at h
    obtain ⟨turn, hturn, h⟩ := Outcome.of_bind_eq_ok h
    obtain ⟨later, hlater, h⟩ := Outcome.of_bind_eq_ok h
    cases h
    obtain ⟨back, hback⟩ :=
      exists_readsBack (htyped m (by simp)) (hnamed m (by simp)) (hroles m (by simp)) hturn
    obtain ⟨backs, hread, hturned, hnone, hpasses⟩ :=
      ih (fun other hother => htyped other (List.mem_cons_of_mem m hother))
        (fun other hother => hnamed other (List.mem_cons_of_mem m hother))
        (fun other hother => hroles other (List.mem_cons_of_mem m hother)) hcheck hlater
    refine ⟨back :: backs, ?_, ?_, List.forall_mem_cons.2 ⟨hback.spoken, hnone⟩, ?_⟩
    · rw [List.map_cons, List.mapM_cons, Outcome.bind_of_ok hback.read, Outcome.bind_of_ok hread]
      rfl
    · rw [List.mapM_cons, Outcome.bind_of_ok hback.turned, Outcome.bind_of_ok hturned]
      rfl
    · intro place
      rw [Conversation.checkFrom, Outcome.bind_of_ok (hback.passes position place known next hpass)]
      exact hpasses (place + 1)

/-! ## Reading tools -/

def declaration (name description : Value) (schema : Fields) : Value :=
  .dict [("type", .str "function"), ("function", .dict [("name", name),
    ("description", description), ("parameters", .dict schema)])]

/-- A declaration is read back as a tool whose schema is complete. -/
theorem ofValue_declaration {name : Value} {text : String} {schema : Fields}
    (hnamed : name.truthy = true) (hcomplete : Tool.Complete schema) :
    ToolSchema.ofValue (declaration name (.str text) schema) =
      .ok ⟨name, .str text, .dict schema⟩ := by
  have hfunction : (declaration name (.str text) schema).get "function" =
      .ok (.dict [("name", name), ("description", .str text), ("parameters", .dict schema)]) := rfl
  have hread : ToolSchema.ofValue (declaration name (.str text) schema) =
      .ok ⟨name, (Value.str text).orElse (.str ""), (Value.dict schema).orElse (.dict [])⟩ :=
    ToolSchema.ofValue_nested rfl rfl hfunction rfl rfl hnamed rfl rfl
  rw [hread, Value.orElse_empty_str, Value.orElse, if_pos hcomplete.truthy]

/-- A declared tool is read as a tool that is declared as it is. -/
theorem declare_declared {tool : ToolSchema} {declared : Value} (h : tool.Described)
    (hdeclared : declare tool = .ok declared) :
    ∃ again, ToolSchema.ofValue declared = .ok again ∧ declare again = .ok declared := by
  obtain ⟨schema, hschema, hdeclared⟩ := Outcome.of_bind_eq_ok hdeclared
  cases hdeclared
  obtain ⟨fields, rfl, hcomplete⟩ := Tool.exists_complete_of_jsonSchema hschema
  obtain ⟨text, htext⟩ := h.description
  rw [htext]
  refine ⟨_, ofValue_declaration h.named hcomplete, ?_⟩
  rw [declare, Outcome.bind_of_ok (Tool.jsonSchema_of_complete hcomplete)]
  rfl

/-- Declarations are read back as tools that are declared in the same way. -/
theorem declareAll_declared {tools : List ToolSchema} {entries : List Value}
    (h : ∀ tool ∈ tools, tool.Described) (hentries : tools.mapM declare = .ok entries) :
    ∃ again, entries.mapM ToolSchema.ofValue = .ok again ∧ again.mapM declare = .ok entries := by
  have hall := Outcome.mapM_eq_ok_iff.1 hentries
  simp only [Outcome.mapM_eq_ok_iff]
  refine exists_list_between (List.forall₂_same.2 fun declared hdeclared => ?_)
  obtain ⟨tool, htool, hdeclare⟩ := exists_of_mem_left hall.flip hdeclared
  exact declare_declared (h tool htool) hdeclare

end OpenAI

/-- What counts as something has items, if it has any at all. -/
theorem Value.items_ne_nil {v : Value} {items : List Value} (h : v.items = .ok items)
    (htruthy : v.truthy = true) : items ≠ [] := by
  rintro rfl
  cases v with
  | str s =>
    have hnone : s.toList = [] := by simpa [Value.items, characters] using h
    simp [Value.truthy, String.toList_eq_nil_iff.1 hnone] at htruthy
  | list all =>
    cases h
    cases htruthy
  | dict fields =>
    have hnone : fields = [] := by simpa [Value.items] using h
    simp [Value.truthy, hnone] at htruthy
  | _ => cases h

namespace Payload

/-- Declared tools are declared as they are. -/
theorem toolsOf_declared {label tools declared : Value} (h : tools.DescribesTools)
    (hdeclared : toolsOf (.openAI label) tools = .ok declared) :
    toolsOf (.openAI label) declared = .ok declared := by
  unfold toolsOf at hdeclared
  split at hdeclared
  · rename_i htruthy
    obtain ⟨raws, hraws, hdeclared⟩ := Outcome.of_bind_eq_ok hdeclared
    obtain ⟨read, hread, hdeclared⟩ := Outcome.of_bind_eq_ok hdeclared
    obtain ⟨entries, hentries, hdeclared⟩ := Outcome.of_bind_eq_ok hdeclared
    cases hdeclared
    have hdescribed : ∀ tool ∈ read, tool.Described := by
      intro tool htool
      obtain ⟨raw, hraw, htool⟩ := exists_of_mem_left (Outcome.mapM_eq_ok_iff.1 hread).flip htool
      exact h raws hraws raw hraw tool htool
    obtain ⟨again, hagain, hsame⟩ := OpenAI.declareAll_declared hdescribed hentries
    -- there is at least one tool, so the declarations count as something
    have hsome : (Value.list entries).truthy = true := by
      have hlength : raws.length = entries.length :=
        (Outcome.mapM_eq_ok_iff.1 hread).length_eq.trans
          (Outcome.mapM_eq_ok_iff.1 hentries).length_eq
      have hraws := Value.items_ne_nil hraws htruthy
      cases entries with
      | nil => exact absurd (List.length_eq_zero_iff.1 hlength) hraws
      | cons first rest => rfl
    have hitems : (Value.list entries).items = .ok entries := rfl
    rw [toolsOf, if_pos hsome, Outcome.bind_of_ok hitems, Outcome.bind_of_ok hagain, declareAll,
      OpenAI.declareAll, Outcome.bind_of_ok hsame]
    rfl
  · cases hdeclared
    rfl

/-! ## Adapting again -/

/-- Read entries that pass are a conversation with the system instruction in front of them. -/
theorem ofValue_entries {backs : List Message} {entries : List OpenAI.Turn} {system : Value}
    (hsystem : system = .null ∨ ∃ text, text ≠ "" ∧ system = .str text)
    (hread : (entries.map OpenAI.Turn.toValue).mapM Message.ofValue = .ok backs)
    (hsome : backs ≠ []) (hnone : ∀ back ∈ backs, back.hasRole "system" = false)
    (hcheck : ∀ place, Conversation.checkFrom place [] backs = .ok ()) :
    ∃ ms, Conversation.ofValue (.list ((if system.truthy then .system system :: entries
        else entries).map OpenAI.Turn.toValue)) = .ok ms ∧
      Conversation.systemPrompt ms .null = .ok system ∧ Conversation.turns ms = backs := by
  rcases hsystem with rfl | ⟨text, htext, rfl⟩
  · refine ⟨backs, Conversation.ofValue_of_read hread ?_,
      Conversation.systemPrompt_of_none hnone .null, Conversation.turns_of_none hnone⟩
    rw [Conversation.check_eq_checkFrom hsome, hcheck]
  · let first : Message := { role := .str "system", content := .str text }
    have hfirst : Message.ofValue (OpenAI.Turn.system (.str text)).toValue = .ok first := rfl
    have hmap : ((OpenAI.Turn.system (.str text) :: entries).map
        OpenAI.Turn.toValue).mapM Message.ofValue = .ok (first :: backs) := by
      rw [List.map_cons, List.mapM_cons, Outcome.bind_of_ok hfirst, Outcome.bind_of_ok hread]
      rfl
    have hpass : Conversation.check (first :: backs) = .ok () := by
      have hplain : Conversation.checkMessage 0 [] first = .ok [] := rfl
      rw [Conversation.check_eq_checkFrom (by simp), Conversation.checkFrom,
        Outcome.bind_of_ok hplain, hcheck]
    have hrole : first.hasRole "system" = true := rfl
    have hparts : Conversation.systemParts (first :: backs) =
        first.content.orElse (.str "") :: Conversation.systemParts backs := by
      simp [Conversation.systemParts, hrole]
    refine ⟨first :: backs, ?_, ?_, ?_⟩
    · rw [if_pos (Value.truthy_str.2 htext)]
      exact Conversation.ofValue_of_read hmap hpass
    · have htext : first.content.orElse (.str "") = .str text := Value.orElse_empty_str text
      rw [Conversation.systemPrompt, hparts, htext, Conversation.systemParts_of_none hnone]
      rfl
    · rw [Conversation.turns_cons_system hrole, Conversation.turns_of_none hnone]

variable {label messages systemPrompt tools : Value} {ms : List Message} {payload : Payload}

/-- The messages and tools of a chat-completions payload, adapted again without a system prompt,
give the same payload. The functions and tools have to have names, the descriptions have to be
texts, and the system instruction may not be empty. -/
theorem adapt_adapted (hms : Conversation.ofValue messages = .ok ms)
    (htyped : ∀ m ∈ ms, m.WellTyped) (hnamed : ∀ m ∈ ms, m.NamesFunctions)
    (htools : tools.DescribesTools)
    (h : adapt (.openAI label) messages systemPrompt tools = .ok payload)
    (hsystem : payload.system = .null ∨ ∃ text, text ≠ "" ∧ payload.system = .str text) :
    adapt (.openAI label) payload.messages .null payload.tools = .ok payload := by
  obtain ⟨system, entries, declared, -, hsome, hentries, hdeclared, rfl⟩ :=
    (adapt_eq_ok_iff hms).1 h
  obtain ⟨all, hall, hentries⟩ := Outcome.of_bind_eq_ok hentries
  cases hentries
  obtain ⟨turns, hturns, hall⟩ := Outcome.of_bind_eq_ok hall
  cases hall
  have hcheck := Conversation.checkFrom_turns (Conversation.checkFrom_of_ofValue hms) 0
  obtain ⟨backs, hread, hturned, hnone, hpasses⟩ :=
    OpenAI.exists_readBacks (fun m hm => htyped m (List.mem_of_mem_filter hm))
      (fun m hm => hnamed m (List.mem_of_mem_filter hm)) (Conversation.isTurn_of_mem_turns hms)
      hcheck hturns
  have hbacks : backs ≠ [] := by
    rintro rfl
    cases hturned
    exact hsome (List.forall₂_nil_right_iff.1 (Outcome.mapM_eq_ok_iff.1 hturns))
  obtain ⟨again, hagain, hinstruction, hspoken⟩ :=
    ofValue_entries hsystem hread hbacks hnone hpasses
  refine (adapt_eq_ok_iff hagain).2 ⟨system, _, declared, hinstruction, by rwa [hspoken], ?_,
    toolsOf_declared htools hdeclared, rfl⟩
  rw [Payload.entries, hspoken, OpenAI.turns, Outcome.bind_of_ok hturned]
  rfl

/-- A call without an id and without arguments, and one that is answered. -/
def clockCalls : List TextCall :=
  [⟨"", "now", ""⟩, ⟨"k1", "zone", r#"{"city": "Ulm"}"#⟩]

/-- A conversation with two system messages, the calls, and a result whose id has blanks around
it. -/
def clockMessages : List Message :=
  [{ role := .str "system", content := .str "Be brief." },
    { role := .str "user", content := .str "What time is it?" },
    { role := .str "assistant", toolCalls := clockCalls.map TextCall.toValue },
    { role := .str "tool", content := .str "CET", toolCallId := .str " k1\n" },
    { role := .str "system", content := .str "Mind the zone." },
    { role := .str "assistant" }]

/-- A tool of the library, and one in plain form with a schema that leaves its type out. -/
def clockTools : Value :=
  .list [(ToolSchema.mk (.str "now") (.str "The time.") (.dict [])).toValue,
    .dict [("name", .str "zone"), ("parameters", .dict [("required", .list [.str "city"])])]]

theorem wellTyped_clockMessages : ∀ m ∈ clockMessages, m.WellTyped := by
  intro m hm
  simp only [clockMessages, List.mem_cons, List.not_mem_nil, or_false] at hm
  rcases hm with rfl | rfl | rfl | rfl | rfl | rfl
  · exact ⟨.inr ⟨_, rfl⟩, .inl rfl, .inl rfl, [], rfl⟩
  · exact ⟨.inr ⟨_, rfl⟩, .inl rfl, .inl rfl, [], rfl⟩
  · exact ⟨.inl rfl, .inl rfl, .inl rfl, clockCalls, rfl⟩
  · exact ⟨.inr ⟨_, rfl⟩, .inr ⟨_, rfl⟩, .inl rfl, [], rfl⟩
  · exact ⟨.inr ⟨_, rfl⟩, .inl rfl, .inl rfl, [], rfl⟩
  · exact ⟨.inl rfl, .inl rfl, .inl rfl, [], rfl⟩

theorem namesFunctions_clockMessages : ∀ m ∈ clockMessages, m.NamesFunctions := by
  intro m hm call hcall
  simp only [clockMessages, List.mem_cons, List.not_mem_nil, or_false] at hm
  rcases hm with rfl | rfl | rfl | rfl | rfl | rfl
  · cases hcall
  · cases hcall
  · obtain ⟨known, hknown, heq⟩ := List.mem_map.1 hcall
    have hname : known.name = call.name := by
      have hattr := call.attr_name
      rw [← heq, TextCall.attr_name] at hattr
      simpa using hattr
    rw [← hname]
    simp only [clockCalls, List.mem_cons, List.not_mem_nil, or_false] at hknown
    rcases hknown with rfl | rfl <;> decide
  · cases hcall
  · cases hcall
  · cases hcall

theorem describesTools_clockTools : clockTools.DescribesTools := by
  rintro raws ⟨⟩ raw hraw tool htool
  simp only [List.mem_cons, List.not_mem_nil, or_false] at hraw
  rcases hraw with rfl | rfl
  · cases htool
    exact ⟨rfl, _, rfl⟩
  · cases htool
    exact ⟨rfl, _, rfl⟩

/-- A conversation with two system messages and two calls, one without an id, is adapted once more
to the payload that it has. -/
theorem adapt_adapted_clock :
    ∃ payload, adapt (.openAI (.str "openai")) (.list (clockMessages.map Message.toValue))
        (.str "Unused.") clockTools = .ok payload ∧
      payload.system = .str "Be brief.\n\nMind the zone." ∧
      adapt (.openAI (.str "openai")) payload.messages .null payload.tools = .ok payload := by
  have hok : (adapt (.openAI (.str "openai")) (.list (clockMessages.map Message.toValue))
      (.str "Unused.") clockTools).isOk = true := by
    decide +kernel
  obtain ⟨payload, hpayload⟩ := Outcome.of_isOk hok
  have hms : Conversation.ofValue (.list (clockMessages.map Message.toValue)) =
      .ok clockMessages := rfl
  have hsystem : payload.system = .str "Be brief.\n\nMind the zone." := by
    have hparts : Conversation.systemPrompt clockMessages (.str "Unused.") =
        .ok (.str "Be brief.\n\nMind the zone.") := rfl
    exact (Except.ok.inj (hparts.symm.trans (entries_of_adapt hms hpayload).1)).symm
  exact ⟨payload, hpayload, hsystem,
    adapt_adapted hms wellTyped_clockMessages namesFunctions_clockMessages
      describesTools_clockTools hpayload (.inr ⟨_, by decide, hsystem⟩)⟩

end Payload

end Parley
