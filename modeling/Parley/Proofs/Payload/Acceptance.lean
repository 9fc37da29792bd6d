import Parley.Proofs.Payload.Refusal

/-!
# Which vendors a conversation can be carried to

Once a conversation has passed its check, two of the three vendors take it. The third one addresses
results by the names of functions and sends their texts as objects. It takes the conversation
exactly if every message that answers a call addresses one, and no result has an integer with too
many digits. The check compares ids without the blanks around them, the search for a name compares
them as they are; there, and over such integers, the vendors disagree.

* `Message.Sendable`: a message that no vendor refuses for what its calls hold;
* `Vendor.Resolves`, `Conversation.Readable`: the names that a vendor needs can be found, and the
  results can be read;
* `Payload.Accepts`: a conversation can be carried to a vendor;
* `Payload.accepted_alike`: which vendors accept what the others do.
-/

namespace Parley

/-- A message of texts whose calls name functions and have argument texts, and which names a call if
it is to answer one. -/
structure Message.Sendable (m : Message) : Prop where
  typed : m.WellTyped
  named : ∀ call : TextCall, call.toValue ∈ m.toolCalls → call.name ≠ ""
  spelled : ∀ call : TextCall, call.toValue ∈ m.toolCalls → call.WellSpelled
  answered : m.hasRole "tool" = true → m.answered ≠ ""

/-- A message that brings the name of a function, or the id of a call with no blanks around it. -/
def Message.Unpadded (m : Message) : Prop :=
  m.name.textOrEmpty ≠ "" ∨ m.answered = m.toolCallId.textOrEmpty

/-- Every message that answers a call addresses a function. -/
def Conversation.Addressed (ms : List Message) : Prop :=
  ∀ asked ∈ answeringFrom [] (turns ms), ∃ name, Addresses asked.1 asked.2 name

def Conversation.Readable (ms : List Message) : Prop :=
  ∀ m ∈ ms, m.hasRole "tool" = true → Json.isOverlong m.text = false

/-- What a vendor needs besides: functions that are addressed and results that can be read, if it
addresses functions and reads results. -/
def Vendor.Resolves (vendor : Vendor) (ms : List Message) : Prop :=
  match vendor with
  | .google _ => Conversation.Addressed ms ∧ Conversation.Readable ms
  | _ => True

/-! ## What vendors turn down of such messages -/

namespace Message.Sendable

variable {m : Message}

/-- The results of a sendable message name calls. -/
theorem not_namesNoCall (h : m.Sendable) (hrole : m.hasRole "tool" = true) : ¬m.NamesNoCall := by
  rw [h.typed.namesNoCall_iff]
  exact h.answered hrole

/-- The arguments of its calls can be read. -/
theorem not_undecodable_or_overlong (h : m.Sendable) {call : TextCall}
    (hcall : call.toValue ∈ m.toolCalls) : ¬(call.Undecodable ∨ call.Overlong) :=
  call.refusedIf_argumentFields.exists_ok_iff.1 ⟨_, (h.spelled call hcall).argumentFields⟩

theorem not_makesUndecodable (h : m.Sendable) : ¬m.MakesUndecodable := by
  rintro ⟨call, hcall, hnot⟩
  exact h.not_undecodable_or_overlong hcall (.inl hnot)

theorem not_makesOverlong (h : m.Sendable) : ¬m.MakesOverlong := by
  rintro ⟨call, hcall, hlong⟩
  exact h.not_undecodable_or_overlong hcall (.inr hlong)

theorem toolCallId_truthy (h : m.Sendable) (hrole : m.hasRole "tool" = true) :
    m.toolCallId.truthy = true := by
  apply h.typed.toolCallId.truthy_iff.2
  intro hnone
  apply h.answered hrole
  rw [Message.answered, hnone]
  rfl

/-- Behind calls that name functions, a message that answers a call addresses a function exactly if
it names one. -/
theorem exists_addresses_iff {made : List Value} (h : m.Sendable) (hrole : m.hasRole "tool" = true)
    (hnamed : ∀ call : TextCall, call.toValue ∈ made → call.name ≠ "") :
    (∃ name, Addresses made m name) ↔ ¬m.NamesNoFunction made := by
  by_cases hown : m.name.truthy = true
  · refine iff_of_true ⟨m.name, ?_⟩ ?_
    · rw [Addresses, if_neg (h.typed.name.truthy_iff.1 hown)]
    · intro hnot
      exact h.typed.name.not_truthy_iff.2 hnot.unnamed hown
  · rw [h.typed.namesNoFunction_iff hown (h.toolCallId_truthy hrole)]
    simp only [Addresses, if_pos (h.typed.name.empty_of_not_truthy hown)]
    constructor
    · rintro ⟨name, call, hlast, -⟩ hnameless
      exact hnamed call (LastCall.mem hlast) (hnameless call hlast)
    · intro hsome
      simp only [Classical.not_forall] at hsome
      rcases hsome with ⟨call, hlast, -⟩
      exact ⟨_, call, hlast, rfl⟩

end Message.Sendable

/-- The results address functions exactly if none of them names no function. -/
theorem Conversation.addressed_iff {ms : List Message} (hms : ∀ m ∈ ms, m.Sendable) :
    Addressed ms ↔
      ¬∃ asked ∈ answeringFrom [] (turns ms), asked.2.NamesNoFunction asked.1 := by
  rw [Addressed]
  push Not
  refine forall₂_congr fun asked hasked => ?_
  rcases of_mem_answeringFrom hasked with ⟨before, later, hturns, htool, hcalls⟩
  have hmem (n : Message) (hn : n ∈ before ++ asked.2 :: later) : n ∈ ms :=
    List.mem_of_mem_filter (hturns ▸ hn)
  refine (hms _ (hmem _ (by simp))).exists_addresses_iff htool ?_
  -- the calls before a message are made in messages, and name functions there
  intro call hcall
  rw [hcalls] at hcall
  rcases List.mem_flatMap.1 (callsBefore_subset _ _ hcall) with ⟨n, hn, hmade⟩
  exact (hms n (hmem n (List.mem_append_left _ hn))).named call hmade

/-- A vendor takes messages that hold nothing to refuse unless there are names that it cannot find,
or results that it cannot read. -/
theorem Vendor.not_refuses_iff (vendor : Vendor) {ms : List Message}
    (hms : ∀ m ∈ ms, m.Sendable) :
    ¬(vendor.Refuses ms ∨ vendor.Overruns ms) ↔ vendor.Resolves ms := by
  have hnamed (m : Message) (hm : m ∈ ms) : ¬(m.hasRole "tool" = true ∧ m.NamesNoCall) :=
    fun h => (hms m hm).not_namesNoCall h.1 h.2
  have hdecoded (m : Message) (hm : m ∈ ms) :
      ¬(m.hasRole "assistant" = true ∧ m.MakesUndecodable) :=
    fun h => (hms m hm).not_makesUndecodable h.2
  have hread (m : Message) (hm : m ∈ ms) : ¬(m.hasRole "assistant" = true ∧ m.MakesOverlong) :=
    fun h => (hms m hm).not_makesOverlong h.2
  cases vendor with
  | openAI label =>
    refine iff_of_true ?_ trivial
    rintro (⟨m, hm, h⟩ | hlong)
    · exact hnamed m hm h
    · exact hlong
  | anthropic =>
    refine iff_of_true ?_ trivial
    rintro (⟨m, hm, h | h⟩ | ⟨m, hm, h⟩)
    · exact hnamed m hm h
    · exact hdecoded m hm h
    · exact hread m hm h
  | google tag =>
    have hfirst : ¬∃ m ∈ ms, m.hasRole "assistant" = true ∧ m.MakesUndecodable := by
      rintro ⟨m, hm, h⟩
      exact hdecoded m hm h
    have hreadable : (∃ m ∈ ms, Google.Overruns m) ↔ ¬Conversation.Readable ms := by
      simp only [Conversation.Readable, Classical.not_forall, Bool.not_eq_false, exists_prop]
      exact exists_congr fun m => and_congr_right fun hm => or_iff_right (hread m hm)
    rw [Vendor.Refuses, Vendor.Overruns, Vendor.Resolves, or_iff_right hfirst, hreadable, not_or,
      not_not, Conversation.addressed_iff hms]

/-! ## What the check says of the calls that are answered -/

namespace Conversation

/-- In a conversation that passes, every id that is answered is one of a call made before, once the
blanks around it are gone. -/
theorem lastCall_of_checkFrom {ms : List Message} (hms : ∀ m ∈ ms, m.Sendable)
    (hcheck : checkFrom 0 [] ms = .ok ()) {before later : List Message} {m : Message}
    (hsplit : ms = before ++ m :: later) (htool : m.hasRole "tool" = true) :
    ∃ call, LastCall m.answered (before.flatMap Message.toolCalls) call := by
  have hm : m.Sendable := hms m (by simp [hsplit])
  have hvalid := valid_of_checkFrom (fun n hn => (hms n hn).typed) hcheck
  rcases (hvalid before m later hsplit).answer htool (hm.answered htool) with
    ⟨n, hn, -, call, hcall, hid⟩
  have htyped : ∀ x ∈ before, x.WellTyped := fun x hx => (hms x (by simp [hsplit, hx])).typed
  rcases Google.exists_calls_of_typed htyped with ⟨calls, hcalls⟩
  rw [hcalls]
  refine exists_lastCall ?_
  have hmade : call.toValue ∈ calls.map TextCall.toValue := by
    rw [← hcalls]
    exact List.mem_flatMap.2 ⟨n, hn, hcall⟩
  rcases List.mem_map.1 hmade with ⟨other, hother, hsame⟩
  rw [← hid, ← TextCall.toValue_injective hsame]
  exact List.mem_map_of_mem hother

/-- In a conversation that passes, and in which a message is the same at all of its places, a
message that answers a call addresses a function if it brings a name or an unpadded id. -/
theorem addressed_of_unpadded {ms : List Message} (hms : ∀ m ∈ ms, m.Sendable)
    (hcoherent : Coherent ms) (hunpadded : ∀ m ∈ ms, m.hasRole "tool" = true → m.Unpadded)
    (h : checkFrom 0 [] ms = .ok ()) : Addressed ms := by
  have hturns : ∀ m ∈ turns ms, m ∈ ms := fun m hm => List.mem_of_mem_filter hm
  intro asked hasked
  rcases of_mem_answeringFrom hasked with ⟨before, later, hsplit, htool, hcalls⟩
  have hmem : asked.2 ∈ ms := hturns _ (by simp [hsplit])
  by_cases hown : asked.2.name.textOrEmpty = ""
  · -- what is in front of a message is what comes before one of its places
    have hfront : ∃ front back, turns ms = front ++ asked.2 :: back ∧
        asked.1 = front.flatMap Message.toolCalls := by
      rcases callsBefore_cases asked.2 before with hall | ⟨front, first, back, rfl, hplace, hfront⟩
      · exact ⟨before, later, hsplit, hcalls.trans hall⟩
      · have hsame : first = asked.2 :=
          hcoherent first (hturns _ (by simp [hsplit])) asked.2 hmem hplace
        exact ⟨front, back ++ asked.2 :: later, by simp [hsplit, hsame], hcalls.trans hfront⟩
    rcases hfront with ⟨front, back, hplaced, hmade⟩
    rcases lastCall_of_checkFrom (fun m hm => hms m (hturns m hm)) (checkFrom_turns h 0) hplaced
      htool with ⟨call, hlast⟩
    have hid : asked.2.answered = asked.2.toolCallId.textOrEmpty :=
      (hunpadded asked.2 hmem htool).resolve_left (by simpa)
    refine ⟨.str call.name, ?_⟩
    rw [Addresses, if_pos hown, ← hid, hmade]
    exact ⟨call, hlast, rfl⟩
  · refine ⟨asked.2.name, ?_⟩
    rw [Addresses, if_neg hown]

end Conversation

/-! ## Acceptance -/

namespace Payload

variable {raw systemPrompt tools : Value} {ms : List Message}

def Accepts (vendor : Vendor) (raw systemPrompt tools : Value) : Prop :=
  ∃ payload, adapt vendor raw systemPrompt tools = .ok payload

/-- Turns have entries exactly if the vendor finds the names that it needs and can read the
results. -/
theorem exists_entries_iff (vendor : Vendor) (hms : ∀ m ∈ ms, m.Sendable)
    (hroles : ∀ m ∈ ms, m.IsTurn) (system : Value) :
    (∃ entries, Payload.entries vendor ms system = .ok entries) ↔ vendor.Resolves ms := by
  have hrefused := refusedIf_entries vendor (fun m hm => (hms m hm).typed) hroles system
  rw [hrefused.exists_ok_iff, vendor.not_refuses_iff hms]

/-- System messages are no results, so a vendor needs the same for the turns of a conversation. -/
theorem resolves_turns (vendor : Vendor) :
    vendor.Resolves (Conversation.turns ms) ↔ vendor.Resolves ms := by
  cases vendor with
  | openAI label => exact Iff.rfl
  | anthropic => exact Iff.rfl
  | google tag =>
    have hread : Conversation.Readable (Conversation.turns ms) ↔ Conversation.Readable ms := by
      refine ⟨fun h m hm htool => h m ?_ htool, fun h m hm => h m (List.mem_of_mem_filter hm)⟩
      exact List.mem_filter.2 ⟨hm, by simp [Message.not_hasRole htool]⟩
    simp only [Vendor.Resolves, Conversation.Addressed, Conversation.turns_turns, hread]

/-- Messages that no vendor refuses for what their calls hold are accepted exactly if they pass the
check, there is a turn among them, and the vendor finds the names that it needs and can read the
results. -/
theorem accepts_iff (vendor : Vendor) (hgives : Conversation.Gives raw ms)
    (hms : ∀ m ∈ ms, m.Sendable) (htools : ∃ declared, toolsOf vendor tools = .ok declared) :
    Accepts vendor raw systemPrompt tools ↔
      Conversation.check ms = .ok () ∧ Conversation.turns ms ≠ [] ∧ vendor.Resolves ms := by
  have hsystem := Conversation.systemPrompt_of_typed (fun m hm => (hms m hm).typed) systemPrompt
  have hturns : ∀ m ∈ Conversation.turns ms, m.Sendable :=
    fun m hm => hms m (List.mem_of_mem_filter hm)
  -- the turns have entries exactly if the names are found, once their roles are known
  have hentries (hcheck : Conversation.check ms = .ok ()) (system : Value) :
      (∃ entries, Payload.entries vendor (Conversation.turns ms) system = .ok entries) ↔
        vendor.Resolves ms := by
    have hroles : ∀ m ∈ Conversation.turns ms, m.IsTurn :=
      Conversation.isTurn_of_mem_turns ((Conversation.ofValue_eq_ok_iff hgives).2 ⟨hcheck, rfl⟩)
    rw [exists_entries_iff vendor hturns hroles system]
    exact resolves_turns vendor
  constructor
  · rintro ⟨payload, h⟩
    rcases (adapt_eq_ok_iff_of_gives hgives).1 h with ⟨hcheck, h⟩
    rcases ofMessages_eq_ok_iff.1 h with ⟨system, entries, declared, -, hsome, hmade, -⟩
    exact ⟨hcheck, hsome, (hentries hcheck system).1 ⟨entries, hmade⟩⟩
  · rintro ⟨hcheck, hsome, hresolves⟩
    rcases (hentries hcheck _).2 hresolves with ⟨entries, hmade⟩
    rcases htools with ⟨declared, hdeclared⟩
    exact ⟨_, (adapt_eq_ok_iff_of_gives hgives).2 ⟨hcheck,
      ofMessages_eq_ok_iff.2 ⟨_, entries, declared, hsystem, hsome, hmade, hdeclared, rfl⟩⟩⟩

/-- Of messages that none refuses for what their calls hold, two vendors accept the same
conversations. The third accepts those of them whose results can be read, and in which every message
that answers a call addresses a function. It does if it brings a name, or an id with no blanks
around it, and is the same at all of its places. -/
theorem accepted_alike (hgives : Conversation.Gives raw ms) (hms : ∀ m ∈ ms, m.Sendable)
    (htools : ∀ vendor, ∃ declared, toolsOf vendor tools = .ok declared) :
    (∀ label, Accepts (.openAI label) raw systemPrompt tools ↔
      Accepts .anthropic raw systemPrompt tools) ∧
    (∀ tag, Accepts (.google tag) raw systemPrompt tools ↔
      Accepts .anthropic raw systemPrompt tools ∧ Conversation.Addressed ms ∧
        Conversation.Readable ms) ∧
    (Conversation.Coherent ms → Conversation.Readable ms →
      (∀ m ∈ ms, m.hasRole "tool" = true → m.Unpadded) → ∀ vendor other : Vendor,
        Accepts vendor raw systemPrompt tools ↔ Accepts other raw systemPrompt tools) := by
  have haccepts (vendor : Vendor) : Accepts vendor raw systemPrompt tools ↔
      Conversation.check ms = .ok () ∧ Conversation.turns ms ≠ [] ∧ vendor.Resolves ms :=
    accepts_iff vendor hgives hms (htools vendor)
  refine ⟨?_, ?_, ?_⟩
  · intro label
    rw [haccepts, haccepts]
    exact Iff.rfl
  · intro tag
    rw [haccepts, haccepts]
    simp only [Vendor.Resolves, and_true, and_assoc]
  · intro hcoherent hreadable hunpadded
    -- of what the vendors ask for only the names differ, and those are found
    have hresolves (vendor : Vendor) (hcheck : Conversation.check ms = .ok ()) :
        vendor.Resolves ms := by
      cases vendor with
      | google tag =>
        exact ⟨Conversation.addressed_of_unpadded hms hcoherent hunpadded
          (Conversation.checkFrom_of_check hcheck), hreadable⟩
      | _ => trivial
    have hpassed (vendor : Vendor) : Accepts vendor raw systemPrompt tools ↔
        Conversation.check ms = .ok () ∧ Conversation.turns ms ≠ [] := by
      rw [haccepts]
      constructor
      · rintro ⟨hcheck, hsome, -⟩
        exact ⟨hcheck, hsome⟩
      · rintro ⟨hcheck, hsome⟩
        exact ⟨hcheck, hsome, hresolves vendor hcheck⟩
    intro vendor other
    rw [hpassed, hpassed]

/-- A question, a call of a clock, and a message that answers it by an id. -/
def timeMessages (id : String) : List Message :=
  [{ role := .str "user", content := .str "What time is it?" },
    { role := .str "assistant", toolCalls := [TextCall.toValue ⟨"c1", "clock", ""⟩] },
    { role := .str "tool", content := .str "noon", toolCallId := .str id }]

/-- The conversation about the time is sendable with any id that is not blank. -/
theorem sendable_timeMessages {id : String} (hid : Text.strip id.toList ≠ []) :
    ∀ m ∈ timeMessages id, m.Sendable := by
  have hblank : String.ofList (Text.strip id.toList) ≠ "" := by simpa using hid
  have hcall : ∀ call : TextCall, call.toValue ∈ [TextCall.toValue ⟨"c1", "clock", ""⟩] →
      call = ⟨"c1", "clock", ""⟩ := by
    intro call h
    exact TextCall.toValue_injective (List.mem_singleton.1 h)
  have hspelled : TextCall.WellSpelled ⟨"c1", "clock", ""⟩ :=
    TextCall.wellSpelled_of_spells (.inl ⟨rfl, rfl⟩)
  intro m hm
  simp only [timeMessages, List.mem_cons, List.not_mem_nil, or_false] at hm
  rcases hm with rfl | rfl | rfl
  · exact ⟨⟨.inr ⟨_, rfl⟩, .inl rfl, .inl rfl, [], rfl⟩, by simp, by simp, by rintro ⟨⟩⟩
  · refine ⟨⟨.inl rfl, .inl rfl, .inl rfl, [⟨_, _, _⟩], rfl⟩, ?_, ?_, by rintro ⟨⟩⟩
    · intro call h
      rw [hcall call h]
      decide
    · intro call h
      rw [hcall call h]
      exact hspelled
  · exact ⟨⟨.inr ⟨_, rfl⟩, .inr ⟨_, rfl⟩, .inl rfl, [], rfl⟩, by simp, by simp, fun _ => hblank⟩

theorem unpadded_timeMessages : ∀ m ∈ timeMessages "c1", m.hasRole "tool" = true → m.Unpadded := by
  intro m hm hrole
  simp only [timeMessages, List.mem_cons, List.not_mem_nil, or_false] at hm
  rcases hm with rfl | rfl | rfl
  · cases hrole
  · cases hrole
  · exact .inr rfl

theorem readable_timeMessages : Conversation.Readable (timeMessages "c1") := by
  intro m hm hrole
  simp only [timeMessages, List.mem_cons, List.not_mem_nil, or_false] at hm
  rcases hm with rfl | rfl | rfl
  · cases hrole
  · cases hrole
  · decide

/-- With an id that has no blanks around it, all vendors accept the conversation. -/
theorem accepted_alike_time :
    Accepts (.openAI .null) (.list ((timeMessages "c1").map Message.toValue)) .null .null ∧
    Accepts .anthropic (.list ((timeMessages "c1").map Message.toValue)) .null .null ∧
    Accepts (.google "tag") (.list ((timeMessages "c1").map Message.toValue)) .null .null := by
  have hgoogle : (adapt (.google "tag") (.list ((timeMessages "c1").map Message.toValue))
      .null .null).isOk = true := by
    decide +kernel
  have halike : ∀ vendor other : Vendor,
      Accepts vendor (.list ((timeMessages "c1").map Message.toValue)) .null .null ↔
        Accepts other (.list ((timeMessages "c1").map Message.toValue)) .null .null :=
    (accepted_alike (Conversation.gives_map_toValue (timeMessages "c1"))
      (sendable_timeMessages (by decide)) fun vendor => ⟨.null, rfl⟩).2.2
        (Conversation.coherent_of_unmarked (by decide)) readable_timeMessages unpadded_timeMessages
  have haccepted := Outcome.of_isOk hgoogle
  exact ⟨(halike _ (.google "tag")).2 haccepted, (halike _ (.google "tag")).2 haccepted, haccepted⟩

/-- Blanks around the id that is answered: two vendors accept the conversation, the third does
not. -/
theorem disagree_of_padded :
    (∀ m ∈ timeMessages " c1 ", m.Sendable) ∧
    Accepts (.openAI .null) (.list ((timeMessages " c1 ").map Message.toValue)) .null .null ∧
    Accepts .anthropic (.list ((timeMessages " c1 ").map Message.toValue)) .null .null ∧
    ¬Accepts (.google "tag") (.list ((timeMessages " c1 ").map Message.toValue)) .null .null := by
  have hopenAI : (adapt (.openAI .null) (.list ((timeMessages " c1 ").map Message.toValue))
      .null .null).isOk = true := by
    decide +kernel
  have hanthropic : (adapt .anthropic (.list ((timeMessages " c1 ").map Message.toValue))
      .null .null).isOk = true := by
    decide +kernel
  have hgoogle : (adapt (.google "tag") (.list ((timeMessages " c1 ").map Message.toValue))
      .null .null).isOk = false := by
    decide +kernel
  refine ⟨sendable_timeMessages (by decide), Outcome.of_isOk hopenAI, Outcome.of_isOk hanthropic,
    ?_⟩
  rintro ⟨payload, h⟩
  exact Outcome.ne_ok_of_isOk hgoogle payload h

end Payload

end Parley
