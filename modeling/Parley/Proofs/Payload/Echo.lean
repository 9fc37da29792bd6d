import Parley.Proofs.Payload.Refusal
import Parley.Proofs.Transcript.Adaptation

/-!
# Answering a call by its own id

What becomes of a message that is added to a conversation to answer one of its calls, and repeats
the id of that call. The blanks around an id are dropped where it is answered and kept where it is
made, so what decides is whether the id is one of a call without them.

* `Message.Echoes`: a message that answers a call by the id of that call;
* `Payload.echo_verdict`: which such messages pass, and under which ids the call and its result are
  told to the vendors that know ids.
-/

namespace Parley

def TextCall.bareId (call : TextCall) : String :=
  String.ofList (Text.strip call.id.toList)

/-- A message that answers a call by the id of that call. -/
structure Message.Echoes (m : Message) (call : TextCall) : Prop where
  typed : m.WellTyped
  tool : m.hasRole "tool" = true
  silent : m.toolCalls = []
  id : m.toolCallId = .str call.id

variable {ms : List Message} {m : Message} {call : TextCall}

/-- An echo answers the bare id of the call. -/
theorem Message.Echoes.answered (h : m.Echoes call) : m.answered = call.bareId := by
  rw [Message.answered, h.id]
  rfl

/-! ## The check -/

namespace Conversation

/-- Only assistants make calls in a conversation whose messages fit. -/
theorem exists_maker (hvalid : Valid ms) (hcall : call.toValue ∈ ms.flatMap Message.toolCalls) :
    ∃ n ∈ ms, n.hasRole "assistant" = true ∧ call.toValue ∈ n.toolCalls := by
  rcases List.mem_flatMap.1 hcall with ⟨n, hn, hmade⟩
  rcases List.append_of_mem hn with ⟨before, after, hsplit⟩
  exact ⟨n, hn, (hvalid before n after hsplit).calls (List.ne_nil_of_mem hmade), hmade⟩

/-- An echo fits behind the conversation exactly if the bare id was announced. -/
theorem fits_echo_iff (hid : call.bareId ≠ "") (hecho : m.Echoes call) :
    Fits ms m ↔ Announced ms call.bareId := by
  rw [← hecho.answered] at hid ⊢
  constructor
  · intro hfits
    exact hfits.answer hecho.tool hid
  · intro hmade
    exact ⟨⟨"tool", by decide, hecho.tool⟩, fun hsome => absurd hecho.silent hsome,
      fun _ _ => hmade⟩

/-- A message that answers a call by its id passes behind a conversation that does, if there is a
call whose id is that one without blanks. -/
theorem check_echo_iff (hcheck : check ms = .ok ()) (htyped : ∀ n ∈ ms, n.WellTyped)
    (hid : call.bareId ≠ "") (hecho : m.Echoes call) :
    check (ms ++ [m]) = .ok () ↔ Announced ms call.bareId := by
  have hboth : ∀ n ∈ ms ++ [m], n.WellTyped :=
    List.forall_mem_append.2 ⟨htyped, by simpa using hecho.typed⟩
  have hvalid : Valid ms := ((check_eq_ok_iff_valid htyped).1 hcheck).2
  rw [check_eq_ok_iff_valid hboth, valid_concat_iff, fits_echo_iff hid hecho]
  simp [hvalid]

/-- An echo is a turn behind the others. -/
theorem turns_concat (hecho : m.Echoes call) : turns (ms ++ [m]) = turns ms ++ [m] := by
  have hsystem : m.hasRole "system" = false := Message.not_hasRole hecho.tool (by decide)
  simp [turns, hsystem]

end Conversation

/-! ## Conversations with an echo -/

/-- A message that echoes the id of a call is no reason to turn the conversation down, or not to be
able to read it. -/
theorem Message.Echoes.refuses_concat {vendor : Vendor} (hids : ∀ tag, vendor ≠ .google tag)
    (hid : call.bareId ≠ "") (hecho : m.Echoes call) :
    vendor.Refuses (ms ++ [m]) ∨ vendor.Overruns (ms ++ [m]) ↔
      vendor.Refuses ms ∨ vendor.Overruns ms := by
  have hnamed : ¬m.NamesNoCall := by
    rw [hecho.typed.namesNoCall_iff, hecho.answered]
    exact hid
  have hother : m.hasRole "assistant" = false := Message.not_hasRole hecho.tool (by decide)
  cases vendor with
  | google tag => exact absurd rfl (hids tag)
  | _ =>
    simp [Vendor.Refuses, Vendor.Overruns, Anthropic.Refused, Anthropic.Overruns, or_and_right,
      exists_or, hnamed, hother]

namespace Payload

variable {vendor : Vendor} {raw echoed : Value} (systemPrompt tools : Value)

/-- A vendor that knows ids takes a conversation that it took before with an echo as well, if that
passes the check. -/
theorem exists_adapt_echo_iff (hids : ∀ tag, vendor ≠ .google tag)
    (hms : Conversation.ofValue raw = .ok ms) (htyped : ∀ n ∈ ms, n.WellTyped)
    (hid : call.bareId ≠ "") (hecho : m.Echoes call)
    (hgives : Conversation.Gives echoed (ms ++ [m])) {payload : Payload}
    (hpayload : adapt vendor raw systemPrompt tools = .ok payload) :
    (∃ next, adapt vendor echoed systemPrompt tools = .ok next) ↔
      Conversation.check (ms ++ [m]) = .ok () := by
  constructor
  · rintro ⟨next, hnext⟩
    exact ((adapt_eq_ok_iff_of_gives hgives).1 hnext).1
  · intro hcheck
    have hall : ∀ n ∈ ms ++ [m], n.WellTyped :=
      List.forall_mem_append.2 ⟨htyped, by simpa using hecho.typed⟩
    have hroles : ∀ n ∈ Conversation.turns ms ++ [m], n.IsTurn := by
      rw [← Conversation.turns_concat hecho]
      exact Conversation.isTurn_of_mem_turns (Conversation.ofValue_of_check hcheck)
    have hturns : ∀ n ∈ Conversation.turns ms ++ [m], n.WellTyped := by
      rw [← Conversation.turns_concat hecho]
      exact fun n hn => hall n (List.mem_of_mem_filter hn)
    rcases List.forall_mem_append.1 hroles with ⟨hroles', -⟩
    rcases List.forall_mem_append.1 hturns with ⟨hturns', -⟩
    rcases (adapt_eq_ok_iff hms).1 hpayload with
      ⟨system, entries, declared, -, -, hentries, hdeclared, -⟩
    -- the turns so far have entries, so the vendor turns none of them down
    have htaken : ¬(vendor.Refuses (Conversation.turns ms ++ [m]) ∨
        vendor.Overruns (Conversation.turns ms ++ [m])) := by
      rw [hecho.refuses_concat hids hid]
      exact (refusedIf_entries vendor hturns' hroles' system).exists_ok_iff.1 ⟨entries, hentries⟩
    have hsystem := Conversation.systemPrompt_of_typed hall systemPrompt
    rcases (refusedIf_entries vendor hturns hroles _).exists_ok_iff.2 htaken with ⟨more, hmore⟩
    rw [← Conversation.turns_concat hecho] at hmore
    refine ⟨_, (adapt_eq_ok_iff_of_gives hgives).2 ⟨hcheck, ofMessages_eq_ok_iff.2
      ⟨_, more, declared, hsystem, ?_, hmore, hdeclared, rfl⟩⟩⟩
    simp [Conversation.turns_concat hecho]

/-- In a conversation with an echo, a vendor that knows ids is told of the call under the id with
which it was made and, at the end, of its result under that id without the blanks around it. -/
theorem told_echo (hids : ∀ tag, vendor ≠ .google tag)
    (hmade : ∃ n ∈ ms, n.hasRole "assistant" = true ∧ call.toValue ∈ n.toolCalls)
    (htyped : ∀ n ∈ ms, n.WellTyped) (hecho : m.Echoes call)
    (hgives : Conversation.Gives echoed (ms ++ [m])) {next : Payload}
    (hnext : adapt vendor echoed systemPrompt tools = .ok next) :
    ∃ earlier, Transcript.read vendor next.messages =
        earlier ++ [⟨vendor.resultRole, .result (.str call.bareId) (.str m.text)⟩] ∧
      ∃ arguments, ⟨vendor.assistantRole,
        .call (some (.str call.id)) (.str call.name) arguments⟩ ∈ earlier := by
  have hcheck := ((adapt_eq_ok_iff_of_gives hgives).1 hnext).1
  have hms := (Conversation.ofValue_eq_ok_iff hgives).2 ⟨hcheck, rfl⟩
  have hturns : ∀ n ∈ Conversation.turns (ms ++ [m]), n.WellTyped := by
    intro n hn
    rcases List.mem_append.1 (List.mem_of_mem_filter hn) with hn | hn
    · exact htyped n hn
    · rw [List.mem_singleton.1 hn]
      exact hecho.typed
  rcases entries_of_adapt hms hnext with ⟨-, entries, hentries, hpayload⟩
  rcases tells_entries hturns (Conversation.isTurn_of_mem_turns hms) hentries with
    ⟨told, htold, hread⟩
  rw [Conversation.turns_concat hecho] at htold
  rcases exists_of_concat_left htold with ⟨front, items, rfl, hfront, hitems⟩
  refine ⟨front.flatten, ?_, ?_⟩
  · rw [hpayload, hread, hitems.eq_result hids hecho.tool, hecho.answered]
    simp
  · -- the call is made in a turn, and told with that
    rcases hmade with ⟨n, hn, hassistant, hcall⟩
    have hturn : n ∈ Conversation.turns ms :=
      List.mem_filter.2 ⟨hn, by simp [Message.not_hasRole hassistant]⟩
    rcases exists_of_mem_left hfront hturn with ⟨said, hmem, hsaid⟩
    rcases hsaid.exists_call hids hassistant hcall with ⟨arguments, hitem⟩
    exact ⟨arguments, List.mem_flatten.2 ⟨said, hmem, hitem⟩⟩

/-- A message that answers a call by its id passes exactly if the id without the blanks around it is
that of a call, which it is if there are none. A vendor that knows ids then takes the conversation
if it took it before. It is told of the call under its id and of the result, at the end, under the
id without blanks, so these are the same exactly if there are none. -/
theorem echo_verdict (hids : ∀ tag, vendor ≠ .google tag)
    (hms : Conversation.ofValue raw = .ok ms) (htyped : ∀ n ∈ ms, n.WellTyped)
    (hcall : call.toValue ∈ ms.flatMap Message.toolCalls) (hid : call.bareId ≠ "")
    (hecho : m.Echoes call) (hgives : Conversation.Gives echoed (ms ++ [m])) :
    (Conversation.ofValue echoed = .ok (ms ++ [m]) ↔ Conversation.Announced ms call.bareId) ∧
    (call.bareId = call.id → Conversation.ofValue echoed = .ok (ms ++ [m])) ∧
    (∀ payload, adapt vendor raw systemPrompt tools = .ok payload →
      ((∃ next, adapt vendor echoed systemPrompt tools = .ok next) ↔
        Conversation.ofValue echoed = .ok (ms ++ [m]))) ∧
    ∀ next, adapt vendor echoed systemPrompt tools = .ok next →
      ∃ earlier, Transcript.read vendor next.messages =
          earlier ++ [⟨vendor.resultRole, .result (.str call.bareId) (.str m.text)⟩] ∧
        ∃ arguments, ⟨vendor.assistantRole,
          .call (some (.str call.id)) (.str call.name) arguments⟩ ∈ earlier := by
  have hcheck : Conversation.check ms = .ok () := Conversation.check_of_ofValue hms
  have hvalid : Conversation.Valid ms := ((Conversation.check_eq_ok_iff_valid htyped).1 hcheck).2
  have hmade := Conversation.exists_maker hvalid hcall
  have hpass : Conversation.ofValue echoed = .ok (ms ++ [m]) ↔
      Conversation.check (ms ++ [m]) = .ok () := by
    rw [Conversation.ofValue_eq_ok_iff hgives, and_iff_left rfl]
  rw [hpass]
  have hverdict := Conversation.check_echo_iff hcheck htyped hid hecho
  refine ⟨hverdict, ?_, ?_, ?_⟩
  · intro hbare
    rw [hverdict, hbare]
    rcases hmade with ⟨n, hn, hassistant, hcall⟩
    exact ⟨n, hn, hassistant, call, hcall, rfl⟩
  · intro payload hpayload
    exact exists_adapt_echo_iff systemPrompt tools hids hms htyped hid hecho hgives hpayload
  · intro next hnext
    exact told_echo systemPrompt tools hids hmade htyped hecho hgives hnext

def chimeMessages (id : String) : List Message :=
  [{ role := .str "user", content := .str "Ring at noon." },
    { role := .str "assistant", toolCalls := [TextCall.toValue ⟨id, "chime", ""⟩] }]

def chimeEcho (id : String) : Message :=
  { role := .str "tool", content := .str "done", toolCallId := .str id }

theorem wellTyped_chimeMessages (id : String) : ∀ m ∈ chimeMessages id, m.WellTyped := by
  intro m hm
  simp only [chimeMessages, List.mem_cons, List.not_mem_nil, or_false] at hm
  rcases hm with rfl | rfl
  · exact ⟨.inr ⟨_, rfl⟩, .inl rfl, .inl rfl, [], rfl⟩
  · exact ⟨.inl rfl, .inl rfl, .inl rfl, [⟨_, _, _⟩], rfl⟩

theorem echoes_chimeEcho (id : String) : (chimeEcho id).Echoes ⟨id, "chime", ""⟩ :=
  ⟨⟨.inr ⟨_, rfl⟩, .inr ⟨_, rfl⟩, .inl rfl, [], rfl⟩, rfl, rfl, rfl⟩

/-- An id without blanks is echoed, and the vendor gets the result. -/
theorem echo_verdict_chime :
    ∃ next earlier,
      adapt .anthropic (.list ((chimeMessages "c1" ++ [chimeEcho "c1"]).map Message.toValue))
        .null .null = .ok next ∧
      Transcript.read .anthropic next.messages =
        earlier ++ [⟨.str "user", .result (.str "c1") (.str "done")⟩] := by
  have hms : Conversation.ofValue (.list ((chimeMessages "c1").map Message.toValue)) =
      .ok (chimeMessages "c1") := rfl
  have hok : (adapt .anthropic (.list ((chimeMessages "c1").map Message.toValue)) .null
      .null).isOk = true := by
    decide +kernel
  have hids : ∀ tag, Vendor.anthropic ≠ .google tag := by rintro tag ⟨⟩
  have hbare : TextCall.bareId ⟨"c1", "chime", ""⟩ = "c1" := by decide
  rcases Outcome.of_isOk hok with ⟨payload, hpayload⟩
  rcases echo_verdict .null .null hids hms (wellTyped_chimeMessages "c1")
    (by simp [chimeMessages]) (by decide) (echoes_chimeEcho "c1")
    (Conversation.gives_map_toValue _) with ⟨-, hpass, htaken, htold⟩
  rcases (htaken payload hpayload).2 (hpass hbare) with ⟨next, hnext⟩
  rcases htold next hnext with ⟨earlier, hread, -⟩
  rw [hbare] at hread
  exact ⟨next, earlier, hnext, hread⟩

/-- Blanks around the id of a call: the message that answers it by just that id is turned down. -/
theorem unknown_of_padded :
    Conversation.ofValue (.list ((chimeMessages " c1 ").map Message.toValue)) =
      .ok (chimeMessages " c1 ") ∧
    (∀ m ∈ chimeMessages " c1 ", m.WellTyped) ∧
    TextCall.toValue ⟨" c1 ", "chime", ""⟩ ∈ (chimeMessages " c1 ").flatMap Message.toolCalls ∧
    TextCall.bareId ⟨" c1 ", "chime", ""⟩ ≠ "" ∧
    (chimeEcho " c1 ").Echoes ⟨" c1 ", "chime", ""⟩ ∧
    Conversation.ofValue (.list ((chimeMessages " c1 " ++ [chimeEcho " c1 "]).map
      Message.toValue)) = .error (.invalidMessage (.unknownCall 2 "c1")) :=
  ⟨rfl, wellTyped_chimeMessages " c1 ", by simp [chimeMessages], by decide,
    echoes_chimeEcho " c1 ", rfl⟩

end Payload

end Parley
