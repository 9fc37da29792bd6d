import Mathlib.Data.List.SplitBy
import Parley.Proofs.Payload
import Parley.Proofs.Transcript.Addresses
import Parley.Proofs.Transcript.Anthropic

/-!
# Results that share an entry

Two vendors take the results of calls in entries of their users. Results that follow one another
share such an entry, and everything else that is said has an entry of its own.

* `Conversation.runs`: messages, cut where one that answers no call begins or ends;
* `Vendor.Becomes`: what an entry says of the messages that it is made of;
* `Payload.shared_results`: every run becomes one entry, and no entry of results stands next to
  another or says anything else.

Whether a result joins the entry before it is decided by that entry, not by the message that it was
made of. `Vendor.Adds` describes one such step by what can be read off the entries; `Grouped` is
what every step preserves.
-/

namespace Parley

/-! ## Runs of messages -/

/-- Messages in groups: those that answer calls and follow one another are together, and any other
message is by itself. -/
def Conversation.runs (ms : List Message) : List (List Message) :=
  ms.splitBy fun m next => m.hasRole "tool" && next.hasRole "tool"

namespace Vendor

/-- An entry of a user that reports results and says nothing else. -/
structure ReportsOnly (vendor : Vendor) (entry : Value) : Prop where
  role : entry.read "role" = .str "user"
  parts : ∀ part ∈ vendor.readParts entry, part.IsResult

/-- The entry that some messages become: one for a message of a user or an assistant, and one for
messages that answer calls, with a result for each of them in order. -/
inductive Becomes (vendor : Vendor) : List Message → Value → Prop where
  | own {m : Message} {entry : Value}
      (speaks : m.Speaks)
      (told : Tells vendor m (Transcript.ofEntry vendor entry)) : Becomes vendor [m] entry
  | results {run : List Message} {entry : Value} (made : run ≠ [])
      (answering : ∀ m ∈ run, m.hasRole "tool" = true) (role : entry.read "role" = .str "user")
      (told : List.Forall₂ (TellsResult vendor) run (vendor.readParts entry)) :
      Becomes vendor run entry

/-- How a message adds to the entries before it, the nearest first: with an entry of its own, or
with a result, which opens an entry or joins the nearest one if that reports results only. -/
inductive Adds (vendor : Vendor) (m : Message) : List Value → List Value → Prop where
  | own {before : List Value} {entry : Value}
      (speaks : m.Speaks)
      (told : Tells vendor m (Transcript.ofEntry vendor entry)) :
      Adds vendor m before (entry :: before)
  | opened {before : List Value} {entry : Value} {part : Part} (tool : m.hasRole "tool" = true)
      (role : entry.read "role" = .str "user") (parts : vendor.readParts entry = [part])
      (told : TellsResult vendor m part) (apart : ∀ last ∈ before.head?, ¬vendor.ReportsOnly last) :
      Adds vendor m before (entry :: before)
  | joined {last entry : Value} {earlier : List Value} {part : Part}
      (tool : m.hasRole "tool" = true) (only : vendor.ReportsOnly last)
      (role : entry.read "role" = .str "user")
      (parts : vendor.readParts entry = vendor.readParts last ++ [part])
      (told : TellsResult vendor m part) : Adds vendor m (last :: earlier) (entry :: earlier)

end Vendor

/-! ## Entries that report results only -/

section Results

variable {vendor : Vendor} {m : Message}

theorem Message.Speaks.not_tool (h : m.Speaks) : m.hasRole "tool" = false :=
  h.not_hasRole (by decide) (by decide)

/-- What a user or an assistant says is not read off an entry that reports results only. -/
theorem Tells.not_reportsOnly {entry : Value} (h : Tells vendor m (Transcript.ofEntry vendor entry))
    (hspeaks : m.Speaks) : ¬vendor.ReportsOnly entry := by
  have hsystem : m.hasRole "system" = false := hspeaks.not_hasRole (by decide) (by decide)
  intro honly
  -- something is said, and what is said is both a result and none
  rcases List.exists_mem_of_ne_nil _ (h.ne_nil hsystem) with ⟨item, hitem⟩
  rcases List.mem_map.1 hitem with ⟨part, hpart, rfl⟩
  exact h.not_isResult hspeaks.not_tool _ hitem (honly.parts part hpart)

/-- An entry of results that are told holds nothing else. -/
theorem reportsOnly_of_told {run : List Message} {entry : Value}
    (hrole : entry.read "role" = .str "user")
    (htold : List.Forall₂ (TellsResult vendor) run (vendor.readParts entry)) :
    vendor.ReportsOnly entry := by
  refine ⟨hrole, ?_⟩
  intro part hpart
  rcases exists_of_mem_left htold.flip hpart with ⟨m, -, hm⟩
  exact TellsResult.isResult hm

end Results

/-! ## Entries of runs -/

section Grouping

variable {vendor : Vendor} {told : List Message} {before after : List Value}

/-- Messages stand in groups for the entries that they have become, the nearest first, and of two
neighbouring entries one says something else than results. -/
def Grouped (vendor : Vendor) (told : List Message) (before : List Value) : Prop :=
  ∃ groups : List (List Message), groups.reverse.flatten = told ∧
    List.Forall₂ vendor.Becomes groups before ∧
    before.IsChain fun entry last => ¬(vendor.ReportsOnly entry ∧ vendor.ReportsOnly last)

theorem grouped_nil : Grouped vendor [] [] :=
  ⟨[], rfl, .nil, .nil⟩

/-- A message keeps the entries grouped, whether it has an entry of its own or joins one. -/
theorem Grouped.step {m : Message} (h : Grouped vendor told before)
    (hadds : vendor.Adds m before after) : Grouped vendor (told ++ [m]) after := by
  rcases h with ⟨groups, hwhole, hbecome, hchain⟩
  cases hadds with
  | own speaks hsaid =>
    -- something other than a result is said, so the entry may stand next to any other
    refine ⟨[m] :: groups, by simp [hwhole], .cons (.own speaks hsaid) hbecome, ?_⟩
    refine List.isChain_cons.2 ⟨?_, hchain⟩
    rintro last - ⟨honly, -⟩
    exact hsaid.not_reportsOnly speaks honly
  | @opened _ entry part tool role parts hsaid apart =>
    have hresult : List.Forall₂ (TellsResult vendor) [m] (vendor.readParts entry) := by
      rw [parts]
      exact .cons hsaid .nil
    refine ⟨[m] :: groups, by simp [hwhole],
      .cons (.results (by simp) (by simpa using tool) role hresult) hbecome, ?_⟩
    refine List.isChain_cons.2 ⟨?_, hchain⟩
    rintro last hlast ⟨-, honly⟩
    exact apart last hlast honly
  | @joined last entry earlier part tool only role parts hsaid =>
    -- the nearest entry reports results only, so what it was made of are results
    cases hbecome with
    | @cons run _ groups _ hlast hrest =>
      cases hlast with
      | own hspeaks hown => exact absurd only (hown.not_reportsOnly hspeaks)
      | results made answering _ htold =>
        have hresults :
            List.Forall₂ (TellsResult vendor) (run ++ [m]) (vendor.readParts entry) := by
          rw [parts]
          exact List.rel_append htold (.cons hsaid .nil)
        have hall : ∀ n ∈ run ++ [m], n.hasRole "tool" = true :=
          List.forall_mem_append.2 ⟨answering, by simpa using tool⟩
        refine ⟨(run ++ [m]) :: groups, ?_,
          .cons (.results (by simp) hall role hresults) hrest, ?_⟩
        · simp [← hwhole]
        · rcases List.isChain_cons.1 hchain with ⟨hnear, hfar⟩
          refine List.isChain_cons.2 ⟨?_, hfar⟩
          rintro other hother ⟨-, honly⟩
          exact hnear other hother ⟨only, honly⟩

theorem Vendor.Becomes.ne_nil {group : List Message} {entry : Value}
    (h : vendor.Becomes group entry) : group ≠ [] := by
  cases h with
  | own speaks told => simp
  | results made answering role told => exact made

/-- Messages that become one entry follow one another in one run. -/
theorem Vendor.Becomes.isChain {group : List Message} {entry : Value}
    (h : vendor.Becomes group entry) :
    group.IsChain fun m next => (m.hasRole "tool" && next.hasRole "tool") = true := by
  cases h with
  | own speaks told => exact List.isChain_singleton _
  | results made answering role told =>
    refine (List.pairwise_of_forall_mem_list ?_).isChain
    intro m hm next hnext
    rw [answering m hm, answering next hnext]
    rfl

/-- Between messages that become two entries a run ends, unless both entries report results only. -/
theorem Vendor.Becomes.ends {group next : List Message} {entry following : Value}
    (h : vendor.Becomes group entry) (hnext : vendor.Becomes next following)
    (hother : ¬(vendor.ReportsOnly following ∧ vendor.ReportsOnly entry)) :
    ∃ (hgroup : group ≠ []) (hn : next ≠ []),
      ((group.getLast hgroup).hasRole "tool" && (next.head hn).hasRole "tool") = false := by
  refine ⟨h.ne_nil, hnext.ne_nil, ?_⟩
  cases h with
  | own speaks told => simp [speaks.not_tool]
  | results made answering role told =>
    cases hnext with
    | own speaks told' => simp [speaks.not_tool]
    | results made' answering' role' told' =>
      exact absurd ⟨reportsOnly_of_told role' told', reportsOnly_of_told role told⟩ hother

/-- An entry with a result in it holds results only. -/
theorem Vendor.Becomes.reportsOnly_of_result {group : List Message} {entry : Value} {part : Part}
    (h : vendor.Becomes group entry) (hpart : part ∈ vendor.readParts entry)
    (hresult : part.IsResult) : vendor.ReportsOnly entry := by
  cases h with
  | own speaks told =>
    exact absurd hresult (told.not_isResult speaks.not_tool _ (List.mem_map_of_mem hpart))
  | results made answering role told => exact reportsOnly_of_told role told

/-- The groups are the runs of the messages. -/
theorem Grouped.runs (h : Grouped vendor told before) :
    List.Forall₂ vendor.Becomes (Conversation.runs told) before.reverse := by
  rcases h with ⟨groups, rfl, hbecome, hchain⟩
  have hsome : [] ∉ groups.reverse := by
    intro hnil
    rcases exists_of_mem_left hbecome (List.mem_reverse.1 hnil) with ⟨entry, -, hentry⟩
    exact hentry.ne_nil rfl
  -- what `splitBy` asks for: no empty group, chains inside, and a break between each two
  have hinner : ∀ group ∈ groups.reverse,
      group.IsChain fun m next => (m.hasRole "tool" && next.hasRole "tool") = true := by
    intro group hgroup
    rcases exists_of_mem_left hbecome (List.mem_reverse.1 hgroup) with ⟨entry, -, hentry⟩
    exact hentry.isChain
  have hruns : Conversation.runs groups.reverse.flatten = groups.reverse := by
    refine List.splitBy_flatten hsome hinner (List.isChain_reverse.2 ?_)
    exact isChain_of_forall₂ hbecome hchain fun hnext hgroup hother => hgroup.ends hnext hother
  rw [hruns]
  exact List.rel_reverse hbecome

end Grouping

/-! ## Steps of the vendors -/

namespace Anthropic

variable {m : Message}

theorem role_results (results : List ToolResult) :
    (Turn.results results).toValue.read "role" = .str "user" := by
  simp [Turn.toValue, Turn.role]

/-- Of entries that hold no list that a user wrote, those with results report results only. -/
theorem reportsOnly_iff {turn : Turn} (hp : turn.Plain) :
    Vendor.anthropic.ReportsOnly turn.toValue ↔ ∃ results, turn = .results results := by
  constructor
  · intro h
    cases turn with
    | results results => exact ⟨results, rfl⟩
    | user content =>
      have hparts := h.parts
      cases content with
      | list blocks => exact absurd rfl (hp blocks)
      | _ => simp [Vendor.readParts, readParts, Turn.toValue, Turn.content, Part.IsResult] at hparts
    | _ =>
      have hrole := h.role
      simp [Turn.toValue, Turn.role] at hrole
  · rintro ⟨results, rfl⟩
    refine ⟨role_results results, ?_⟩
    rw [readParts_results]
    intro part hpart
    rcases List.mem_map.1 hpart with ⟨result, -, rfl⟩
    exact ⟨_, _, rfl⟩

/-- A result becomes a turn with one result. -/
theorem results_of_ofMessage {turn : Turn} (hm : m.WellTyped) (htool : m.hasRole "tool" = true)
    (h : Turn.ofMessage m = .ok turn) :
    ∃ result, turn = .results [result] ∧ TellsResult .anthropic m result.part := by
  have hcontent : m.content.orElse (.str "") = .str m.text := hm.content.orElse_empty
  rw [ofMessage_result htool, hcontent] at h
  rcases Outcome.of_bind_eq_ok h with ⟨id, hid, h⟩
  cases h
  refine ⟨_, rfl, ?_⟩
  rw [(hm.requireAnsweredId_eq_ok_iff.1 hid).2]
  rfl

/-- The entry of a message is added to those before it, or joined to the nearest one. -/
theorem adds_push {turn : Turn} {before after : List Turn} (hbefore : ∀ t ∈ before, t.Plain)
    (hm : m.WellTyped) (hrole : m.IsTurn) (hturn : Turn.ofMessage m = .ok turn)
    (hpush : push before turn = .ok after) :
    Vendor.anthropic.Adds m (before.map Turn.toValue) (after.map Turn.toValue) := by
  rcases tells_ofMessage hm hrole hturn with ⟨hsaid, hplain⟩
  rcases hrole.tool_or_speaks with htool | hspeaks
  · rcases results_of_ofMessage hm htool hturn with ⟨result, rfl, htold⟩
    -- the nearest entry holds results and grows, or it reports something else as well
    by_cases hlast : ∃ old earlier, before = .results old :: earlier
    · rcases hlast with ⟨old, earlier, rfl⟩
      have hafter : after = .results (old ++ [result]) :: earlier := by
        cases hpush
        rfl
      have honly : Vendor.anthropic.ReportsOnly (Turn.results old).toValue :=
        (reportsOnly_iff (hbefore _ List.mem_cons_self)).2 ⟨old, rfl⟩
      rw [hafter]
      refine .joined htool honly (role_results _) ?_ htold
      rw [readParts_results, readParts_results, List.map_append]
      rfl
    · rcases push_cases hbefore hplain hpush with rfl | ⟨old, new, earlier, hold, -, -⟩
      · refine .opened htool (role_results _) (readParts_results [result]) htold ?_
        intro last hmem honly
        cases before with
        | nil => cases hmem
        | cons nearest earlier =>
          cases hmem
          rcases (reportsOnly_iff (hbefore nearest List.mem_cons_self)).1 honly with ⟨old, rfl⟩
          exact hlast ⟨old, earlier, rfl⟩
      · exact absurd ⟨old, earlier, hold⟩ hlast
  · rcases push_cases hbefore hplain hpush with rfl | ⟨old, new, earlier, -, rfl, -⟩
    · exact .own hspeaks hsaid
    · -- only an entry of results is joined to another, and this one says something else
      exact absurd ((reportsOnly_iff hplain).2 ⟨new, rfl⟩) (hsaid.not_reportsOnly hspeaks)

/-- The entries of messages are grouped as those before them are. -/
theorem grouped_turnsAfter {told ms : List Message} {before after : List Turn}
    (hbefore : ∀ t ∈ before, t.Plain) (htyped : ∀ m ∈ ms, m.WellTyped)
    (hroles : ∀ m ∈ ms, m.IsTurn)
    (hgrouped : Grouped .anthropic told (before.map Turn.toValue))
    (h : turnsAfter before ms = .ok after) :
    Grouped .anthropic (told ++ ms) (after.map Turn.toValue) := by
  induction ms generalizing told before with
  | nil =>
    cases h
    rwa [List.append_nil]
  | cons m rest ih =>
    rcases Outcome.of_bind_eq_ok h with ⟨turn, hturn, h⟩
    rcases Outcome.of_bind_eq_ok h with ⟨next, hnext, h⟩
    have hm : m.WellTyped := htyped m List.mem_cons_self
    have hrole : m.IsTurn := hroles m List.mem_cons_self
    have hplain : turn.Plain := (tells_ofMessage hm hrole hturn).2
    -- the message joins those told so far, and its entry those that are grouped
    rw [List.append_cons]
    refine ih (push_plain hbefore hplain hnext) (fun n hn => htyped n (List.mem_cons_of_mem m hn))
      (fun n hn => hroles n (List.mem_cons_of_mem m hn)) ?_ h
    exact hgrouped.step (adds_push hbefore hm hrole hturn hnext)

end Anthropic

namespace Google

variable {tag : String} {m : Message}

/-- A text is read from its part, unless it is null. -/
theorem readPart_textPart (text : Value) :
    readPart (textPart text) = if text.isNull then .other (textPart text) else .text text := by
  cases text <;> simp [readPart, textPart, Value.isNull]

theorem role_responses (responses : List FunctionResponse) :
    (Turn.responses responses).toValue.read "role" = .str "user" := by
  simp [Turn.toValue, Turn.role]

/-- Only responses hold results and nothing else. -/
theorem reportsOnly_iff {turn : Turn} :
    (Vendor.google tag).ReportsOnly turn.toValue ↔ ∃ responses, turn = .responses responses := by
  constructor
  · intro h
    cases turn with
    | responses responses => exact ⟨responses, rfl⟩
    | user text =>
      have hparts := h.parts
      have hpart : (readPart (textPart text)).IsResult :=
        hparts _ (by simp [Vendor.readParts, readParts, Turn.toValue, Turn.parts])
      rcases hpart with ⟨answers, content, hpart⟩
      rw [readPart_textPart] at hpart
      split at hpart
      · cases hpart
      · cases hpart
    | _ =>
      have hrole := h.role
      simp [Turn.toValue, Turn.role] at hrole
  · rintro ⟨responses, rfl⟩
    refine ⟨role_responses responses, ?_⟩
    rw [readParts_responses]
    intro part hpart
    rcases List.mem_map.1 hpart with ⟨response, -, rfl⟩
    exact ⟨_, _, rfl⟩

/-- A result becomes a turn with one response. -/
theorem responses_of_ofMessage {seen : List Message} {turn : Turn}
    (hseen : ∀ n ∈ seen, n.WellTyped) (hm : m.WellTyped) (htool : m.hasRole "tool" = true)
    (h : Turn.ofMessage seen m = .ok turn) :
    ∃ response, turn = .responses [response] ∧ TellsResult (.google tag) m response.part := by
  rw [ofMessage_result seen htool] at h
  rcases Outcome.of_bind_eq_ok h with ⟨name, hname, h⟩
  rcases Outcome.of_bind_eq_ok h with ⟨fields, hfields, h⟩
  cases h
  cases eq_responseObject hm.content hfields
  rcases answeredName_typed hseen hm hname with ⟨function, hne, rfl⟩
  exact ⟨_, rfl, function, hne, rfl⟩

/-- The entry of a message is added to those before it, or joined to the nearest one. -/
theorem adds_push {seen : List Message} {turn : Turn} (before : List Turn)
    (hseen : ∀ n ∈ seen, n.WellTyped) (hm : m.WellTyped) (hrole : m.IsTurn)
    (hturn : Turn.ofMessage seen m = .ok turn) :
    (Vendor.google tag).Adds m (before.map Turn.toValue) ((push before turn).map Turn.toValue) := by
  rcases hrole.tool_or_speaks with htool | hspeaks
  · rcases responses_of_ofMessage hseen hm htool hturn with ⟨response, rfl, htold⟩
    by_cases hlast : ∃ old earlier, before = .responses old :: earlier
    · rcases hlast with ⟨old, earlier, rfl⟩
      have hafter : push (.responses old :: earlier) (.responses [response]) =
          .responses (old ++ [response]) :: earlier := rfl
      rw [hafter]
      refine .joined htool (reportsOnly_iff.2 ⟨old, rfl⟩) (role_responses _) ?_ htold
      rw [readParts_responses, readParts_responses, List.map_append]
      rfl
    · rcases push_cases before (.responses [response]) with
        hafter | ⟨old, new, earlier, hold, -, -⟩
      · rw [hafter]
        refine .opened htool (role_responses _) (readParts_responses [response]) htold ?_
        intro last hmem honly
        cases before with
        | nil => cases hmem
        | cons nearest earlier =>
          cases hmem
          rcases reportsOnly_iff.1 honly with ⟨old, rfl⟩
          exact hlast ⟨old, earlier, rfl⟩
      · exact absurd ⟨old, earlier, hold⟩ hlast
  · have hsaid : Tells (.google tag) m turn.items := tells_ofMessage hseen hm hrole hturn
    rw [← ofEntry_toValue] at hsaid
    rcases push_cases before turn with hafter | ⟨old, new, earlier, -, rfl, -⟩
    · rw [hafter]
      exact .own hspeaks hsaid
    · exact absurd (reportsOnly_iff.2 ⟨new, rfl⟩) (hsaid.not_reportsOnly hspeaks)

/-- Turns are grouped one by one: a run of results goes on in the entry in which it began. -/
theorem grouped_turnsAfter {told seen ms : List Message} {before after : List Turn}
    (hseen : ∀ n ∈ seen, n.WellTyped) (htyped : ∀ m ∈ ms, m.WellTyped)
    (hroles : ∀ m ∈ ms, m.IsTurn)
    (hgrouped : Grouped (.google tag) told (before.map Turn.toValue))
    (h : turnsAfter seen before ms = .ok after) :
    Grouped (.google tag) (told ++ ms) (after.map Turn.toValue) := by
  induction ms generalizing told seen before with
  | nil =>
    cases h
    rwa [List.append_nil]
  | cons m rest ih =>
    rcases Outcome.of_bind_eq_ok h with ⟨turn, hturn, h⟩
    have hm : m.WellTyped := htyped m List.mem_cons_self
    have hseen' : ∀ n ∈ seen ++ [m], n.WellTyped :=
      List.forall_mem_append.2 ⟨hseen, by simpa using hm⟩
    rw [List.append_cons]
    refine ih hseen' (fun n hn => htyped n (List.mem_cons_of_mem m hn))
      (fun n hn => hroles n (List.mem_cons_of_mem m hn)) ?_ h
    exact hgrouped.step (adds_push before hseen hm (hroles m List.mem_cons_self) hturn)

end Google

/-! ## Conversations -/

namespace Payload

variable {vendor : Vendor}

/-- The entries of a conversation are its groups. -/
theorem grouped_entries {ms : List Message} {system : Value} {entries : List Value}
    (hvendor : ∀ label, vendor ≠ .openAI label) (htyped : ∀ m ∈ ms, m.WellTyped)
    (hroles : ∀ m ∈ ms, m.IsTurn) (h : Payload.entries vendor ms system = .ok entries) :
    Grouped vendor ms entries.reverse := by
  cases vendor with
  | openAI label => exact absurd rfl (hvendor label)
  | anthropic =>
    rcases Outcome.of_bind_eq_ok h with ⟨turns, hturns, h⟩
    cases h
    rcases Outcome.of_bind_eq_ok hturns with ⟨after, hafter, hturns⟩
    cases hturns
    rw [List.map_reverse, List.reverse_reverse]
    exact Anthropic.grouped_turnsAfter (by simp) htyped hroles grouped_nil hafter
  | google tag =>
    rcases Outcome.of_bind_eq_ok h with ⟨turns, hturns, h⟩
    cases h
    rcases Outcome.of_bind_eq_ok hturns with ⟨after, hafter, hturns⟩
    cases hturns
    rw [List.map_reverse, List.reverse_reverse]
    exact Google.grouped_turnsAfter (by simp) htyped hroles grouped_nil hafter

/-- For the two vendors that take results from users, a conversation of texts without its system
messages becomes one entry for every run of messages that answer calls, which reports one result
for each of them in order, and one for every other message. No two entries that report results only
are neighbours, and an entry with a result says nothing else. -/
theorem shared_results {messages systemPrompt tools : Value} {ms : List Message} {payload : Payload}
    (hvendor : ∀ label, vendor ≠ .openAI label) (hms : Conversation.ofValue messages = .ok ms)
    (htyped : ∀ m ∈ ms, m.WellTyped)
    (h : adapt vendor messages systemPrompt tools = .ok payload) :
    ∃ entries, payload.messages = .list entries ∧
      List.Forall₂ vendor.Becomes (Conversation.runs (Conversation.turns ms)) entries ∧
      entries.IsChain (fun entry next => ¬(vendor.ReportsOnly entry ∧ vendor.ReportsOnly next)) ∧
      ∀ entry ∈ entries, (∃ part ∈ vendor.readParts entry, part.IsResult) →
        vendor.ReportsOnly entry := by
  rcases entries_of_adapt hms h with ⟨-, entries, hentries, hpayload⟩
  have hturns : ∀ m ∈ Conversation.turns ms, m.WellTyped :=
    fun m hm => htyped m (List.mem_of_mem_filter hm)
  have hgrouped : Grouped vendor (Conversation.turns ms) entries.reverse :=
    grouped_entries hvendor hturns (Conversation.isTurn_of_mem_turns hms) hentries
  have hruns := hgrouped.runs
  rw [List.reverse_reverse] at hruns
  refine ⟨entries, hpayload, hruns, ?_, ?_⟩
  · rcases hgrouped with ⟨groups, -, -, hchain⟩
    refine (List.isChain_reverse.1 hchain).imp ?_
    exact fun entry next hother hboth => hother hboth.symm
  · rintro entry hentry ⟨part, hpart, hresult⟩
    rcases exists_of_mem_left hruns.flip hentry with ⟨run, -, hrun⟩
    exact hrun.reportsOnly_of_result hpart hresult

/-- Two calls whose results are interrupted by a system message, and a user who says nothing. -/
def parcelMessages : List Message :=
  [{ role := .str "user", content := .str "Where are they?" },
    { role := .str "assistant"
      toolCalls := [TextCall.toValue ⟨"c1", "track", ""⟩, TextCall.toValue ⟨"c2", "track", ""⟩] },
    { role := .str "tool", content := .str "Oslo", toolCallId := .str "c1" },
    { role := .str "system", content := .str "Be brief." },
    { role := .str "tool", content := .str "Bergen", toolCallId := .str "c2" },
    { role := .str "user", content := .str "" }]

theorem wellTyped_parcelMessages : ∀ m ∈ parcelMessages, m.WellTyped := by
  intro m hm
  simp only [parcelMessages, List.mem_cons, List.not_mem_nil, or_false] at hm
  rcases hm with rfl | rfl | rfl | rfl | rfl | rfl
  · exact ⟨.inr ⟨_, rfl⟩, .inl rfl, .inl rfl, [], rfl⟩
  · exact ⟨.inl rfl, .inl rfl, .inl rfl, [⟨_, _, _⟩, ⟨_, _, _⟩], rfl⟩
  · exact ⟨.inr ⟨_, rfl⟩, .inr ⟨_, rfl⟩, .inl rfl, [], rfl⟩
  · exact ⟨.inr ⟨_, rfl⟩, .inl rfl, .inl rfl, [], rfl⟩
  · exact ⟨.inr ⟨_, rfl⟩, .inr ⟨_, rfl⟩, .inl rfl, [], rfl⟩
  · exact ⟨.inr ⟨_, rfl⟩, .inl rfl, .inl rfl, [], rfl⟩

/-- The results of two calls in one turn are one run. -/
theorem length_runs_parcelMessages :
    (Conversation.runs (Conversation.turns parcelMessages)).map List.length = [1, 1, 2, 1] := by
  decide

/-- They share an entry, and no such entry stands next to another. -/
theorem shared_results_parcel :
    ∃ payload entries,
      adapt .anthropic (.list (parcelMessages.map Message.toValue)) .null .null = .ok payload ∧
      payload.messages = .list entries ∧ entries.length = 4 ∧
      entries.IsChain fun entry next =>
        ¬(Vendor.anthropic.ReportsOnly entry ∧ Vendor.anthropic.ReportsOnly next) := by
  have hok : (adapt .anthropic (.list (parcelMessages.map Message.toValue)) .null .null).isOk =
      true := by
    decide +kernel
  rcases Outcome.of_isOk hok with ⟨payload, hpayload⟩
  have hms : Conversation.ofValue (.list (parcelMessages.map Message.toValue)) =
      .ok parcelMessages := rfl
  rcases shared_results (by rintro label ⟨⟩) hms wellTyped_parcelMessages hpayload with
    ⟨entries, hentries, hruns, hchain, -⟩
  have hlength : entries.length = 4 := by
    rw [← hruns.length_eq, ← List.length_map List.length, length_runs_parcelMessages]
    rfl
  exact ⟨payload, entries, hpayload, hentries, hlength, hchain⟩

end Payload

end Parley
