import Parley.Proofs.Conversation.Places
import Parley.Proofs.Payload
import Parley.Proofs.Transcript.Addresses
import Parley.Proofs.Turn.Google

/-!
# Where system messages stand

Of a conversation, a payload depends on the texts of the system messages and on the turns, each in
their order. It does not matter where the system messages stand among the turns, not even if one of
them stands between a call and its result, and the usage and the metadata of a message do not matter
at all. Calls that a system message carries do matter: the check refuses them. To one vendor it also
matters which turns are one message that stands at several places.

* `Message.bare`: what of a turn a payload can depend on;
* `Conversation.Alike`: conversations that differ in the rest;
* `Vendor.Places`: the nameless results that are one message are the same ones, if the vendor looks
  names up;
* `Payload.adapt_of_alike`: such conversations have the same payload, or neither has one.
-/

namespace Parley

/-- A message without its usage, its metadata and the places where else it stands. -/
def Message.bare (m : Message) : Message :=
  { m with usage := .null, metadata := .dict [], mark := none }

/-- A bare message keeps what a turn is made of. -/
theorem Message.parts_of_bare {m n : Message} (h : m.bare = n.bare) :
    m.hasRole = n.hasRole ∧ m.content = n.content ∧ m.toolCalls = n.toolCalls ∧
      m.toolCallId = n.toolCallId ∧ m.name = n.name := by
  simp only [bare, Message.mk.injEq, and_true] at h
  rcases h with ⟨hrole, hcontent, hcalls, hid, hname⟩
  refine ⟨?_, hcontent, hcalls, hid, hname⟩
  funext role
  rw [hasRole, hasRole, hrole]

/-- Whether a result has a name can be told from the bare message. -/
theorem Message.isNameless_of_bare {m n : Message} (h : m.bare = n.bare) (hm : m.IsNameless) :
    n.IsNameless := by
  rcases parts_of_bare h with ⟨hrole, -, -, -, hname⟩
  rwa [IsNameless, ← hrole, ← hname]

/-- A vendor that looks names up finds the nameless results of two conversations at the same
places. -/
def Vendor.Places (vendor : Vendor) (ms ns : List Message) : Prop :=
  match vendor with
  | .google _ => Conversation.SamePlaces ms ns
  | _ => True

theorem Vendor.Places.symm {vendor : Vendor} {ms ns : List Message} (h : vendor.Places ms ns) :
    vendor.Places ns ms := by
  cases vendor with
  | google tag => exact Conversation.SamePlaces.symm h
  | _ => trivial

namespace Conversation

def SystemCalls (ms : List Message) : Prop :=
  ∃ m ∈ ms, m.hasRole "system" = true ∧ m.toolCalls ≠ []

/-- Two conversations with the same system texts in order and, usage and metadata aside, the same
turns in order. A conversation in which a system message carries calls is like others of that kind
only. -/
structure Alike (ms ns : List Message) : Prop where
  texts : systemTexts ms = systemTexts ns
  turns : (turns ms).map Message.bare = (turns ns).map Message.bare
  calls : SystemCalls ms ↔ SystemCalls ns

/-- That conversations are alike is symmetric. -/
theorem Alike.symm {ms ns : List Message} (h : Alike ms ns) : Alike ns ms where
  texts := h.texts.symm
  turns := h.turns.symm
  calls := h.calls.symm

/-! ## The check -/

/-- The check does not look at the usage and the metadata. -/
theorem checkFrom_map_bare (position : Nat) (known : List String) (ms : List Message) :
    checkFrom position known (ms.map Message.bare) = checkFrom position known ms := by
  induction ms generalizing position known with
  | nil => rfl
  | cons m rest ih =>
    have hfirst : checkMessage position known m.bare = checkMessage position known m := rfl
    rw [List.map_cons, checkFrom, checkFrom, hfirst]
    exact bind_congr fun next => ih (position + 1) next

/-- A conversation with a turn passes exactly if no system message carries calls and the turns
pass. -/
theorem check_eq_ok_iff_turns {ms : List Message} (hsome : turns ms ≠ []) :
    check ms = .ok () ↔ ¬SystemCalls ms ∧ checkFrom 0 [] (turns ms) = .ok () := by
  have hne : ms ≠ [] := by
    rintro rfl
    exact hsome rfl
  rw [check_eq_checkFrom hne, checkFrom_eq_ok_iff_turns 0]
  apply and_congr_left'
  simp only [SystemCalls, not_exists, not_and, not_not]

namespace Alike

variable {ms ns : List Message}

/-- Conversations that are alike have turns together. -/
theorem turns_ne_nil (h : Alike ms ns) (hsome : Conversation.turns ms ≠ []) :
    Conversation.turns ns ≠ [] := by
  intro hnone
  have hturns := h.turns
  rw [hnone] at hturns
  exact hsome (List.map_eq_nil_iff.1 hturns)

/-- If one of them passes the check, so does the other, for neither or both have calls in a system
message. -/
theorem check (h : Alike ms ns) (hsome : Conversation.turns ms ≠ [])
    (hcheck : Conversation.check ms = .ok ()) : Conversation.check ns = .ok () := by
  rcases (check_eq_ok_iff_turns hsome).1 hcheck with ⟨hcalls, hpass⟩
  apply (check_eq_ok_iff_turns (h.turns_ne_nil hsome)).2
  refine ⟨fun hsystem => hcalls (h.calls.2 hsystem), ?_⟩
  rw [← checkFrom_map_bare, ← h.turns, checkFrom_map_bare]
  exact hpass

/-- They have the same system instruction. -/
theorem systemPrompt (h : Alike ms ns) (hms : ∀ m ∈ ms, m.WellTyped) (hns : ∀ n ∈ ns, n.WellTyped)
    (fallback : Value) :
    Conversation.systemPrompt ms fallback = Conversation.systemPrompt ns fallback := by
  rw [systemPrompt_of_typed hms, systemPrompt_of_typed hns, h.texts]

end Alike

end Conversation

/-! ## The entries -/

/-- The first vendor's turns do not depend on usage and metadata. -/
theorem OpenAI.turns_map_bare (ms : List Message) (system : Value) :
    turns (ms.map Message.bare) system = turns ms system := by
  have hmap : (ms.map Message.bare).mapM Turn.ofMessage = ms.mapM Turn.ofMessage := by
    induction ms with
    | nil => rfl
    | cons m rest ih =>
      have hfirst : Turn.ofMessage m.bare = Turn.ofMessage m := rfl
      rw [List.map_cons, List.mapM_cons, List.mapM_cons, hfirst, ih]
  rw [turns, hmap, turns]

theorem Anthropic.turnsAfter_map_bare (before : List Turn) (ms : List Message) :
    turnsAfter before (ms.map Message.bare) = turnsAfter before ms := by
  induction ms generalizing before with
  | nil => rfl
  | cons m rest ih =>
    have hfirst : Turn.ofMessage m.bare = Turn.ofMessage m := rfl
    rw [List.map_cons, turnsAfter, turnsAfter, hfirst]
    apply bind_congr
    intro turn
    apply bind_congr
    exact ih

namespace Google

theorem nameIn_map_bare (id found : Value) (ms : List Message) :
    nameIn id found (ms.map Message.bare) = nameIn id found ms := by
  induction ms generalizing found with
  | nil => rfl
  | cons m rest ih => exact bind_congr ih

variable {seen zs : List (Message × Message)}

/-- A name that has to be looked up depends on the calls in front of the first place of the
message. -/
theorem answeredName_of_bare {m n : Message} (hseen : ∀ z ∈ seen, z.1.bare = z.2.bare)
    (hmn : m.bare = n.bare)
    (hplaces : ¬m.name.truthy = true → ∀ z ∈ seen, z.1.isAt m = z.2.isAt n) :
    answeredName (seen.map Prod.fst) m = answeredName (seen.map Prod.snd) n := by
  rcases Message.parts_of_bare hmn with ⟨-, -, -, hid, hname⟩
  by_cases hown : n.name.truthy = true
  · simp only [answeredName, hname, hid, if_pos hown]
  have hplaces := hplaces (by rwa [hname])
  rcases beforeFirst_of_samePlaces hplaces with ⟨front, hbegins, hm, hn⟩
  have hfront : (front.map Prod.fst).map Message.bare = (front.map Prod.snd).map Message.bare := by
    rw [List.map_map, List.map_map]
    exact List.map_congr_left fun z hz => hseen z (hbegins.subset hz)
  have hlookup : nameIn n.toolCallId .null (beforeFirst (seen.map Prod.fst) m) =
      nameIn n.toolCallId .null (beforeFirst (seen.map Prod.snd) n) := by
    rw [hm, hn, ← nameIn_map_bare, hfront, nameIn_map_bare]
  simp only [answeredName, hname, if_neg hown, hid, hlookup]

/-- A turn is converted alike if it answers the same call. -/
theorem ofMessage_of_bare {m n : Message} (hseen : ∀ z ∈ seen, z.1.bare = z.2.bare)
    (hmn : m.bare = n.bare) (hrole : m.IsTurn)
    (hplaces : m.IsNameless → n.IsNameless → ∀ z ∈ seen, z.1.isAt m = z.2.isAt n) :
    Turn.ofMessage (seen.map Prod.fst) m = Turn.ofMessage (seen.map Prod.snd) n := by
  rcases Message.parts_of_bare hmn with ⟨hsame, hcontent, hcalls, -, -⟩
  rcases hrole with huser | hassistant | htool
  · rw [ofMessage_user _ huser, ofMessage_user _ (hsame ▸ huser), hcontent]
  · by_cases hnone : m.toolCalls = []
    · rw [ofMessage_plain _ hassistant hnone,
        ofMessage_plain _ (hsame ▸ hassistant) (hcalls ▸ hnone), hcontent]
    · rw [ofMessage_calls _ hassistant hnone,
        ofMessage_calls _ (hsame ▸ hassistant) (hcalls ▸ hnone), hcontent, hcalls]
  · have hname := answeredName_of_bare hseen hmn fun hm =>
      hplaces ⟨htool, hm⟩ (Message.isNameless_of_bare hmn ⟨htool, hm⟩)
    rw [ofMessage_result _ htool, ofMessage_result _ (hsame ▸ htool), hname, hcontent]

/-- Turns that differ in usage and metadata alone are converted alike if the nameless results that
are one message are the same ones. -/
theorem turnsAfter_of_samePlaces (before : List Turn)
    (hbare : ∀ z ∈ seen ++ zs, z.1.bare = z.2.bare) (hroles : ∀ z ∈ zs, z.1.IsTurn)
    (hplaces : (seen ++ zs).Pairwise fun earlier later =>
      later.1.IsNameless → later.2.IsNameless → earlier.1.isAt later.1 = earlier.2.isAt later.2) :
    turnsAfter (seen.map Prod.fst) before (zs.map Prod.fst) =
      turnsAfter (seen.map Prod.snd) before (zs.map Prod.snd) := by
  induction zs generalizing seen before with
  | nil => rfl
  | cons z rest ih =>
    rcases List.forall_mem_cons.1 hroles with ⟨hrole, hroles⟩
    have hturn := ofMessage_of_bare (fun w hw => hbare w (List.mem_append_left _ hw))
      (hbare z (by simp)) hrole fun hm hn w hw =>
        (List.pairwise_append.1 hplaces).2.2 w hw z List.mem_cons_self hm hn
    rw [List.append_cons] at hbare hplaces
    rw [List.map_cons, List.map_cons, turnsAfter, turnsAfter, hturn]
    refine bind_congr fun turn => ?_
    have hrest := ih (push before turn) hbare hroles hplaces
    simpa only [List.map_append, List.map_cons, List.map_nil] using hrest

theorem turns_of_samePlaces {ms ns : List Message} (h : ms.map Message.bare = ns.map Message.bare)
    (hroles : ∀ m ∈ ms, m.IsTurn) (hplaces : Conversation.SamePlaces ms ns) :
    turns ms = turns ns := by
  have hlength : ms.length = ns.length := by
    simpa using congrArg List.length h
  have hpairs : List.Forall₂ (fun m n : Message => m.bare = n.bare) ms ns := by
    rwa [← List.forall₂_eq_eq_eq, List.forall₂_map_left_iff, List.forall₂_map_right_iff] at h
  have hbare : ∀ z ∈ [] ++ ms.zip ns, z.1.bare = z.2.bare :=
    fun z hz => List.forall₂_zip hpairs hz
  have hfirst : ∀ z ∈ ms.zip ns, z.1.IsTurn := fun z hz => hroles z.1 (List.of_mem_zip hz).1
  have hafter := turnsAfter_of_samePlaces [] hbare hfirst hplaces
  rw [List.map_fst_zip hlength.le, List.map_snd_zip hlength.ge] at hafter
  exact congrArg (fun converted => converted >>= fun found => pure found.reverse) hafter

end Google

namespace Payload

variable {raw other : Value} {ms ns : List Message}

/-- Turns that differ in usage and metadata alone have the same entries, if the vendor looks no name
up in a different place. -/
theorem entries_of_bare {vendor : Vendor} (h : ms.map Message.bare = ns.map Message.bare)
    (hroles : ∀ m ∈ ms, m.IsTurn) (hplaces : vendor.Places ms ns) (system : Value) :
    entries vendor ms system = entries vendor ns system := by
  cases vendor with
  | openAI label => simp only [entries, ← OpenAI.turns_map_bare ms, h, OpenAI.turns_map_bare ns]
  | anthropic =>
    simp only [entries, Anthropic.turns, ← Anthropic.turnsAfter_map_bare _ ms, h,
      Anthropic.turnsAfter_map_bare _ ns]
  | google tag => simp only [entries, Google.turns_of_samePlaces h hroles hplaces]

/-! ## The payload -/

/-- A conversation that is like one with a payload has the same payload. -/
theorem adapt_like {vendor : Vendor} {systemPrompt tools : Value} {payload : Payload}
    (hraw : Conversation.Gives raw ms) (hother : Conversation.Gives other ns)
    (hms : ∀ m ∈ ms, m.WellTyped) (hns : ∀ n ∈ ns, n.WellTyped) (h : Conversation.Alike ms ns)
    (hplaces : vendor.Places (Conversation.turns ms) (Conversation.turns ns))
    (hadapt : adapt vendor raw systemPrompt tools = .ok payload) :
    adapt vendor other systemPrompt tools = .ok payload := by
  rcases (adapt_eq_ok_iff_of_gives hraw).1 hadapt with ⟨hcheck, hmade⟩
  rcases ofMessages_eq_ok_iff.1 hmade with
    ⟨system, entries, declared, hsystem, hsome, hentries, hdeclared, rfl⟩
  rw [h.systemPrompt hms hns] at hsystem
  have hroles := Conversation.isTurn_of_mem_turns (Conversation.ofValue_of_check hcheck)
  rw [entries_of_bare h.turns hroles hplaces] at hentries
  apply (adapt_eq_ok_iff_of_gives hother).2
  refine ⟨h.check hsome hcheck, ?_⟩
  apply ofMessages_eq_ok_iff.2
  exact ⟨system, entries, declared, hsystem, h.turns_ne_nil hsome, hentries, hdeclared, rfl⟩

/-- Two conversations of texts that are alike have the same payload for a vendor, or neither has
one; for a vendor that looks names up, if the nameless results that are one message are the same
ones. -/
theorem adapt_of_alike (hraw : Conversation.Gives raw ms) (hother : Conversation.Gives other ns)
    (hms : ∀ m ∈ ms, m.WellTyped) (hns : ∀ n ∈ ns, n.WellTyped) (h : Conversation.Alike ms ns)
    (vendor : Vendor) (hplaces : vendor.Places (Conversation.turns ms) (Conversation.turns ns))
    (systemPrompt tools : Value) (payload : Payload) :
    adapt vendor raw systemPrompt tools = .ok payload ↔
      adapt vendor other systemPrompt tools = .ok payload :=
  ⟨adapt_like hraw hother hms hns h hplaces, adapt_like hother hraw hns hms h.symm hplaces.symm⟩

def weatherUsage : Value :=
  TokenUsage.toValue ⟨.int 5, .int 2, .int 7⟩

def briefing (calls : List TextCall) : Message where
  role := .str "system"
  content := .str "Be brief."
  toolCalls := calls.map TextCall.toValue

/-- A question, a call and its result, with further messages in front and before the result. -/
def weatherTalk (front between : List Message) (usage : Value) : List Message :=
  front ++ [{ role := .str "user", content := .str "Weather?" },
    { role := .str "assistant", toolCalls := [TextCall.toValue ⟨"c", "weather", ""⟩]
      usage := usage }] ++
  between ++ [{ role := .str "tool", content := .str "rain", toolCallId := .str "c" }]

theorem wellTyped_weatherTalk {front between : List Message} (usage : Value)
    (hfront : ∀ m ∈ front, m.WellTyped) (hbetween : ∀ m ∈ between, m.WellTyped) :
    ∀ m ∈ weatherTalk front between usage, m.WellTyped := by
  intro m hm
  simp only [weatherTalk, List.mem_append, List.mem_cons, List.not_mem_nil, or_false] at hm
  rcases hm with ((hm | rfl | rfl) | hm) | rfl
  · exact hfront m hm
  · exact ⟨.inr ⟨_, rfl⟩, .inl rfl, .inl rfl, [], rfl⟩
  · exact ⟨.inl rfl, .inl rfl, .inl rfl, [⟨_, _, _⟩], rfl⟩
  · exact hbetween m hm
  · exact ⟨.inr ⟨_, rfl⟩, .inr ⟨_, rfl⟩, .inl rfl, [], rfl⟩

theorem wellTyped_briefed (calls : List TextCall) : ∀ m ∈ [briefing calls], m.WellTyped := by
  intro m hm
  rw [List.mem_singleton.1 hm]
  exact ⟨.inr ⟨_, rfl⟩, .inl rfl, .inl rfl, calls, rfl⟩

/-- It does not matter whether the system message stands in front of the call or behind it. -/
theorem adapt_of_alike_weather :
    ∃ payload,
      adapt .anthropic (.list ((weatherTalk [briefing []] [] .null).map Message.toValue))
        .null .null = .ok payload ∧
      adapt .anthropic (.list ((weatherTalk [] [briefing []] weatherUsage).map Message.toValue))
        .null .null = .ok payload := by
  have hok : (adapt .anthropic (.list ((weatherTalk [briefing []] [] .null).map Message.toValue))
      .null .null).isOk = true := by
    decide +kernel
  have halike : Conversation.Alike (weatherTalk [briefing []] [] .null)
      (weatherTalk [] [briefing []] weatherUsage) := by
    refine ⟨rfl, rfl, iff_of_false ?_ ?_⟩ <;>
      simp [Conversation.SystemCalls, weatherTalk, briefing, Message.hasRole]
  rcases Outcome.of_isOk hok with ⟨payload, hpayload⟩
  refine ⟨payload, hpayload, ?_⟩
  exact (adapt_of_alike (Conversation.gives_map_toValue _) (Conversation.gives_map_toValue _)
    (wellTyped_weatherTalk .null (wellTyped_briefed []) (by simp))
    (wellTyped_weatherTalk weatherUsage (by simp) (wellTyped_briefed [])) halike .anthropic trivial
    .null .null payload).1 hpayload

/-- The functions, or the calls, that the results of a payload answer. -/
def answersSent (vendor : Vendor) (payload : Payload) : List Value :=
  (Transcript.read vendor payload.messages).filterMap fun item => item.part.answers?

/-- Two calls with one id, and behind each of them a result without a name. With a mark the two
results are one message. -/
def ringMessages (mark : Option Nat) : List Message :=
  let result : Message :=
    { role := .str "tool", content := .str "done", toolCallId := .str "c", mark }
  [{ role := .str "user", content := .str "Ring twice." },
    { role := .str "assistant", toolCalls := [TextCall.toValue ⟨"c", "bell", ""⟩] }, result,
    { role := .str "assistant", toolCalls := [TextCall.toValue ⟨"c", "gong", ""⟩] }, result]

theorem wellTyped_ringMessages (mark : Option Nat) : ∀ m ∈ ringMessages mark, m.WellTyped := by
  intro m hm
  simp only [ringMessages, List.mem_cons, List.not_mem_nil, or_false] at hm
  rcases hm with rfl | rfl | rfl | rfl | rfl
  · exact ⟨.inr ⟨_, rfl⟩, .inl rfl, .inl rfl, [], rfl⟩
  · exact ⟨.inl rfl, .inl rfl, .inl rfl, [⟨_, _, _⟩], rfl⟩
  · exact ⟨.inr ⟨_, rfl⟩, .inr ⟨_, rfl⟩, .inl rfl, [], rfl⟩
  · exact ⟨.inl rfl, .inl rfl, .inl rfl, [⟨_, _, _⟩], rfl⟩
  · exact ⟨.inr ⟨_, rfl⟩, .inr ⟨_, rfl⟩, .inl rfl, [], rfl⟩

/-- Two results answer the two calls. One result that stands behind both calls answers the first one
at both places. -/
theorem answersSent_ringMessages :
    (adapt (.google "tag") (.list ((ringMessages none).map Message.toValue)) .null (.list [])).map
      (answersSent (.google "tag")) = .ok [.str "bell", .str "gong"] ∧
    (adapt (.google "tag") (.list ((ringMessages (some 0)).map Message.toValue)) .null
      (.list [])).map (answersSent (.google "tag")) = .ok [.str "bell", .str "bell"] :=
  ⟨rfl, rfl⟩

/-- With the same texts and the same turns the outcome may differ. A conversation is refused if a
system message carries a call. A result that stands behind both of two calls with one id answers the
first of them twice, where two results answer them both. -/
theorem differ_of_calls_or_places :
    (Conversation.systemTexts (weatherTalk [briefing [⟨"c", "weather", ""⟩]] [] .null) =
      Conversation.systemTexts (weatherTalk [briefing []] [] .null) ∧
    Conversation.turns (weatherTalk [briefing [⟨"c", "weather", ""⟩]] [] .null) =
      Conversation.turns (weatherTalk [briefing []] [] .null) ∧
    (∀ m ∈ weatherTalk [briefing [⟨"c", "weather", ""⟩]] [] .null, m.WellTyped) ∧
    (∀ m ∈ weatherTalk [briefing []] [] .null, m.WellTyped) ∧
    (∃ payload, adapt .anthropic
      (.list ((weatherTalk [briefing []] [] .null).map Message.toValue)) .null .null =
        .ok payload) ∧
    ¬∃ payload, adapt .anthropic
      (.list ((weatherTalk [briefing [⟨"c", "weather", ""⟩]] [] .null).map Message.toValue))
        .null .null = .ok payload) ∧
    (ringMessages none).map Message.bare = (ringMessages (some 0)).map Message.bare ∧
    (∀ mark, ∀ m ∈ ringMessages mark, m.WellTyped) ∧
    (adapt (.google "tag") (.list ((ringMessages none).map Message.toValue)) .null (.list [])).map
      (answersSent (.google "tag")) = .ok [.str "bell", .str "gong"] ∧
    (adapt (.google "tag") (.list ((ringMessages (some 0)).map Message.toValue)) .null
      (.list [])).map (answersSent (.google "tag")) = .ok [.str "bell", .str "bell"] := by
  have hok : (adapt .anthropic (.list ((weatherTalk [briefing []] [] .null).map Message.toValue))
      .null .null).isOk = true := by
    decide +kernel
  have hrefused : (adapt .anthropic
      (.list ((weatherTalk [briefing [⟨"c", "weather", ""⟩]] [] .null).map Message.toValue))
        .null .null).isOk = false := by
    decide +kernel
  refine ⟨⟨rfl, rfl, wellTyped_weatherTalk .null (wellTyped_briefed _) (by simp),
    wellTyped_weatherTalk .null (wellTyped_briefed _) (by simp), Outcome.of_isOk hok, ?_⟩,
    rfl, wellTyped_ringMessages, answersSent_ringMessages⟩
  rintro ⟨payload, h⟩
  exact Outcome.ne_ok_of_isOk hrefused payload h

end Payload

end Parley
