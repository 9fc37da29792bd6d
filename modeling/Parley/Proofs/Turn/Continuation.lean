import Parley.Proofs.Payload
import Parley.Proofs.Reply.Reading
import Parley.Proofs.Turn.Reports

/-!
# Continuing a conversation with another vendor

A reply with calls, read from one vendor, and the reports on its calls can be carried to any vendor.
The payload makes the calls that the first vendor asked for, and its results answer them one by one.

* `Continued`: what the payload of such a conversation holds;
* `Payload.continued_of_says`: every well-formed reply with calls can be continued.
-/

namespace Parley

/-! ## What the payload holds -/

/-- A part of an entry makes a call that was asked for, under the id that the reader gave it if the
vendor knows ids. -/
def MakesCall (vendor : Vendor) (asked : AskedCall) (call : TextCall) (part : Part) : Prop :=
  match vendor with
  | .openAI _ => ∃ text : String, Spells text asked.fields ∧
      part = .call (some (.str call.id)) (.str asked.name) (.str text)
  | .anthropic => part = .call (some (.str call.id)) (.str asked.name) (.dict asked.fields)
  | .google _ => part = .call none (.str asked.name) (.dict asked.fields)

/-- A part of an entry gives the content of a report as the result of the call that it is about,
which is named by its id or by its function. -/
def GivesResult (vendor : Vendor) (calls : List TextCall) (report : Report) (part : Part) : Prop :=
  match vendor with
  | .google _ => ∃ call ∈ calls, call.id = report.id ∧
      part = .result (.str call.name) (.dict (responseObject report.content))
  | _ => part = .result (.str report.id) (.str report.content)

def Vendor.sharesResults : Vendor → Bool
  | .openAI _ => false
  | _ => true

/-- The text of a reply as something said, unless it is empty. -/
def Speech.textParts (speech : Speech) : List Part :=
  if speech.text = "" then [] else [.text (.str speech.text)]

/-- Entries that continue a reply: behind the question one entry with the text of the reply and the
calls that it asks for, then one result for each report, in their order. -/
inductive Continued (vendor : Vendor) (speech : Speech) (calls : List TextCall)
    (reports : List Report) (entries : List Value) : Prop where
  | entries {question reply : Value} {results : List Value} {made given : List Part}
      (order : vendor.body entries = question :: reply :: results)
      (replied : Transcript.ofEntry vendor reply =
        (speech.textParts ++ made).map (Item.mk vendor.assistantRole))
      (makes : List.Forall₂ (fun asked part => MakesCall vendor asked.1 asked.2 part)
        (speech.calls.zip calls) made)
      (reported : results.flatMap (Transcript.ofEntry vendor) =
        given.map (Item.mk vendor.resultRole))
      (gives : List.Forall₂ (GivesResult vendor calls) reports given)
      (shared : vendor.sharesResults = true → results.length = 1)

/-- A relation of two lists is carried over to pairs of their members. -/
theorem forall₂_zip_map {α β γ : Type} {R : α → β → Prop} {S : α × β → γ → Prop} {f : β → γ}
    {as : List α} {bs : List β} (h : List.Forall₂ R as bs) (hS : ∀ a b, R a b → S (a, b) (f b)) :
    List.Forall₂ S (as.zip bs) (bs.map f) := by
  induction h with
  | nil => exact .nil
  | cons hhead _ ih => exact .cons (hS _ _ hhead) ih

/-! ## Replies in an exchange -/

/-- Calls that answer what was asked for have names, and arguments that can be read. -/
theorem forall_of_answers {asked : List AskedCall} {calls : List TextCall}
    (h : List.Forall₂ Answers asked calls) :
    ∀ call ∈ calls, call.name ≠ "" ∧ call.WellSpelled := by
  induction h with
  | nil =>
    intro call hcall
    cases hcall
  | cons hhead _ ih =>
    intro call hcall
    rcases List.mem_cons.1 hcall with rfl | hcall
    · exact ⟨hhead.named, TextCall.wellSpelled_of_spells hhead.arguments⟩
    · exact ih call hcall

namespace Repeats

variable {reply : Message} {speech : Speech} {calls : List TextCall}

/-- The content of a reply that repeats a speech is a text or null. -/
theorem isOptionalText (h : Repeats reply speech calls) : reply.content.IsOptionalText := by
  rw [h.content, Speech.content]
  split
  · exact .inl rfl
  · exact .inr ⟨speech.text, rfl⟩

/-- The text of the reply is that of the speech. -/
theorem text (h : Repeats reply speech calls) : reply.text = speech.text := by
  rw [Message.text, h.content, Speech.content]
  split
  · rename_i hnone
    simp only [Bool.and_eq_true, decide_eq_true_eq] at hnone
    rw [hnone.1]
    rfl
  · rfl

theorem textParts (h : Repeats reply speech calls) : reply.textParts = speech.textParts := by
  rw [Message.textParts, Speech.textParts, h.text]

/-- A question and a message that repeats a reply with calls are an exchange, if the calls can be
told apart. -/
theorem exchange {question : Message} (h : Repeats reply speech calls) (hsome : speech.calls ≠ [])
    (hasked : question.hasRole "user" = true) (hcallless : question.toolCalls = [])
    (hids : Distinguished calls) : Exchange question reply calls := by
  have hall := forall_of_answers h.answers
  exact {
    asked := hasked
    callless := hcallless
    replied := Message.hasRole_of_eq h.role
    content := h.isOptionalText
    made := h.toolCalls
    some_made := by
      rintro rfl
      exact hsome (List.forall₂_nil_right_iff.1 h.answers)
    named := fun call hcall => (hall call hcall).1
    spelled := fun call hcall => (hall call hcall).2
    distinguished := hids }

end Repeats

/-! ## The entries of each vendor -/

section Entries

variable {question reply : Message} {speech : Speech} {calls : List TextCall}
  {reports : List Report}

/-- The first vendor can be continued with any reports. -/
theorem OpenAI.continued (label system : Value) (h : Exchange question reply calls)
    (hreply : Repeats reply speech calls) (hreports : ReportsOn calls reports) :
    ∃ entries, Payload.entries (.openAI label)
        (question :: reply :: reports.map Report.toMessage) system = .ok entries ∧
      Continued (.openAI label) speech calls reports entries := by
  have hmap := mapM_exchange h hreports
  have hbody := body_entries label system (Outcome.mapM_eq_ok_iff.1 hmap)
  have hreplied : Transcript.ofEntry (.openAI label)
      (Turn.calls (reply.content.orElse .null) (calls.map Call.ofText)).toValue =
        (speech.textParts ++ (calls.map Call.ofText).map Call.part).map
          (Item.mk (.str "assistant")) := by
    rw [ofEntry_calls, readContent_orElse h.content, hreply.textParts]
  have hmakes : List.Forall₂ (fun asked part => MakesCall (.openAI label) asked.1 asked.2 part)
      (speech.calls.zip calls) ((calls.map Call.ofText).map Call.part) := by
    rw [List.map_map]
    refine forall₂_zip_map hreply.answers fun asked call hanswers => ?_
    exact ⟨_, spells_orElse_braces hanswers.arguments, by rw [← hanswers.name]; rfl⟩
  have hreported : ((reports.map Turn.ofReport).map Turn.toValue).flatMap
      (Transcript.ofEntry (.openAI label)) =
        (reports.map fun report => Part.result (.str report.id) (.str report.content)).map
          (Item.mk (.str "tool")) := by
    rw [List.flatMap_map, List.flatMap_map, List.map_map, List.map_eq_flatMap]
    exact List.flatMap_congr fun report _ => ofEntry_result report.id (.str report.content)
  have hgives : List.Forall₂ (GivesResult (.openAI label) calls) reports
      (reports.map fun report => Part.result (.str report.id) (.str report.content)) :=
    List.forall₂_map_right_iff.2 (List.forall₂_same.2 fun report _ => rfl)
  -- results have entries of their own here, so none is shared
  refine ⟨_, ?_, .entries hbody hreplied hmakes hreported hgives (by rintro ⟨⟩)⟩
  rw [Payload.entries, turns, Outcome.bind_of_ok hmap]
  rfl

theorem Anthropic.continued (system : Value) (h : Exchange question reply calls)
    (hreply : Repeats reply speech calls) (hreports : ReportsOn calls reports) :
    ∃ entries, Payload.entries .anthropic
        (question :: reply :: reports.map Report.toMessage) system = .ok entries ∧
      Continued .anthropic speech calls reports entries := by
  have hturns := turns_exchange h hreports
  have hreplied : Transcript.ofEntry .anthropic
      (Turn.toolUses (if reply.content.truthy then some reply.content else none)
        (calls.map ToolUse.ofText)).toValue =
        (speech.textParts ++ (calls.map ToolUse.ofText).map ToolUse.part).map
          (Item.mk (.str "assistant")) := by
    rw [← hreply.textParts, ← option_text_parts h.content]
    exact items_toolUses _ _
  have hmakes : List.Forall₂ (fun asked part => MakesCall .anthropic asked.1 asked.2 part)
      (speech.calls.zip calls) ((calls.map ToolUse.ofText).map ToolUse.part) := by
    rw [List.map_map]
    refine forall₂_zip_map hreply.answers fun asked call hanswers => ?_
    have hfields := TextCall.fields_eq_of_spells hanswers.arguments
    simp [MakesCall, ToolUse.part, ToolUse.ofText, hfields, hanswers.name]
  have hreported : [(Turn.results (reports.map ToolResult.ofReport)).toValue].flatMap
      (Transcript.ofEntry .anthropic) =
        (reports.map fun report => Part.result (.str report.id) (.str report.content)).map
          (Item.mk (.str "user")) := by
    have hitems := items_results (reports.map ToolResult.ofReport)
    rw [List.flatMap_singleton]
    refine hitems.trans ?_
    simp [ToolResult.part, ToolResult.ofReport]
  have hgives : List.Forall₂ (GivesResult .anthropic calls) reports
      (reports.map fun report => Part.result (.str report.id) (.str report.content)) :=
    List.forall₂_map_right_iff.2 (List.forall₂_same.2 fun report _ => rfl)
  exact ⟨_, (Outcome.bind_of_ok hturns).trans rfl,
    .entries rfl hreplied hmakes hreported hgives fun _ => rfl⟩

/-- The third can be continued with reports that it can read. -/
theorem Google.continued (tag : String) (system : Value) (h : Exchange question reply calls)
    (hreply : Repeats reply speech calls) (hreports : ReportsOn calls reports)
    (hread : ∀ report ∈ reports, Json.isOverlong report.content = false) :
    ∃ entries, Payload.entries (.google tag)
        (question :: reply :: reports.map Report.toMessage) system = .ok entries ∧
      Continued (.google tag) speech calls reports entries := by
  obtain ⟨new, hnew, hturns⟩ := turns_exchange h hreports hread
  have hreplied : Transcript.ofEntry (.google tag)
      (Turn.calls (if reply.content.truthy then some reply.content else none)
        (calls.map FunctionCall.ofText)).toValue =
        (speech.textParts ++ (calls.map FunctionCall.ofText).map FunctionCall.part).map
          (Item.mk (.str "model")) := by
    rw [ofEntry_toValue, items_calls h.content, hreply.textParts]
  have hmakes : List.Forall₂ (fun asked part => MakesCall (.google tag) asked.1 asked.2 part)
      (speech.calls.zip calls) ((calls.map FunctionCall.ofText).map FunctionCall.part) := by
    rw [List.map_map]
    refine forall₂_zip_map hreply.answers fun asked call hanswers => ?_
    have hfields := TextCall.fields_eq_of_spells hanswers.arguments
    simp [MakesCall, FunctionCall.part, FunctionCall.ofText, hfields, hanswers.name]
  have hreported : [(Turn.responses new).toValue].flatMap (Transcript.ofEntry (.google tag)) =
      (new.map FunctionResponse.part).map (Item.mk (.str "user")) := by
    rw [List.flatMap_singleton, ofEntry_toValue, items_responses, List.map_map]
    rfl
  have hgives : List.Forall₂ (GivesResult (.google tag) calls) reports
      (new.map FunctionResponse.part) := by
    rw [List.forall₂_map_right_iff]
    refine hnew.imp ?_
    -- a result names the function of its call and not the id
    rintro report response ⟨call, hcall, hid, rfl⟩
    exact ⟨call, hcall, hid, rfl⟩
  exact ⟨_, (Outcome.bind_of_ok hturns).trans rfl,
    .entries rfl hreplied hmakes hreported hgives fun _ => rfl⟩

end Entries

/-! ## Continuing a reply -/

/-- Whether a vendor takes results as objects, so that their texts are read. -/
def Vendor.readsResults : Vendor → Bool
  | .google _ => true
  | _ => false

/-- A vendor reads all that it reads of some reports: no integer in it has too many digits. -/
def Vendor.Reads (vendor : Vendor) (reports : List Report) : Prop :=
  vendor.readsResults = true → ∀ report ∈ reports, Json.isOverlong report.content = false

namespace Payload

/-- An exchange and reports on all of its calls have a payload with any vendor that reads the
reports. -/
theorem continued_of_exchange (vendor : Vendor) {question reply : Message} {speech : Speech}
    {calls : List TextCall} {reports : List Report} (systemPrompt : Value)
    (h : Exchange question reply calls) (hreply : Repeats reply speech calls)
    (hreports : ReportsOn calls reports) (hread : vendor.Reads reports) :
    ∃ payload entries, adapt vendor
        (.list ((question :: reply :: reports.map Report.toMessage).map Message.toValue))
        systemPrompt .null = .ok payload ∧
      payload.messages = .list entries ∧ Continued vendor speech calls reports entries := by
  -- there are no system messages, so the conversation is its turns
  have hms := Conversation.ofValue_of_check (Conversation.check_exchange h hreports)
  have hnone := Conversation.not_system_of_exchange h reports
  have hturns := Conversation.turns_of_none hnone
  have hentries : ∃ entries, Payload.entries vendor
      (question :: reply :: reports.map Report.toMessage) systemPrompt = .ok entries ∧
        Continued vendor speech calls reports entries := by
    cases vendor with
    | openAI label => exact OpenAI.continued label systemPrompt h hreply hreports
    | anthropic => exact Anthropic.continued systemPrompt h hreply hreports
    | google tag => exact Google.continued tag systemPrompt h hreply hreports (hread rfl)
  obtain ⟨entries, hentries, hcontinued⟩ := hentries
  rw [← hturns] at hentries
  exact ⟨_, entries, adapt_of_entries hms (by rw [hturns]; simp)
    (Conversation.systemPrompt_of_none hnone systemPrompt) hentries, rfl, hcontinued⟩

/-- Reports that a vendor cannot read end in a fault that is none of a message. -/
theorem adapt_of_not_reads {vendor : Vendor} {question reply : Message} {calls : List TextCall}
    {reports : List Report} (systemPrompt : Value) (h : Exchange question reply calls)
    (hreports : ReportsOn calls reports) (hlong : ¬vendor.Reads reports) :
    adapt vendor (.list ((question :: reply :: reports.map Report.toMessage).map Message.toValue))
      systemPrompt .null = misuse .content := by
  have hms := Conversation.ofValue_of_check (Conversation.check_exchange h hreports)
  have hnone := Conversation.not_system_of_exchange h reports
  have hturns := Conversation.turns_of_none hnone
  have hentries : Payload.entries vendor (question :: reply :: reports.map Report.toMessage)
      systemPrompt = misuse .content := by
    cases vendor with
    | openAI label => exact absurd (by rintro ⟨⟩) hlong
    | anthropic => exact absurd (by rintro ⟨⟩) hlong
    | google tag =>
      have hoverlong : ∃ report ∈ reports, Json.isOverlong report.content = true := by
        simpa [Vendor.Reads, Vendor.readsResults] using hlong
      rw [Payload.entries, Google.turns_overlong h hreports hoverlong]
      rfl
  rw [← hturns] at hentries
  exact adapt_of_error hms (by rw [hturns]; simp)
    (Conversation.systemPrompt_of_none hnone systemPrompt) hentries

/-- A reply of one vendor that makes calls is read, and if its calls can be told apart, the reply
and the reports on its calls, in any order, are carried to any vendor behind a question: the calls
are made as the reply asks for them, and every report is given as the result of its call. A vendor
that reads the reports fails over an integer with too many digits in one of them. -/
theorem continued_of_says {source : Vendor} {response : Value} {speech : Speech}
    (h : source.Says response speech) (hsome : speech.calls ≠ []) :
    ∃ reply calls, source.readReply response = .ok reply ∧ Repeats reply speech calls ∧
      (Distinguished calls → ∀ (vendor : Vendor) (question : Message) (reports : List Report)
        (systemPrompt : Value), question.hasRole "user" = true → question.toolCalls = [] →
        ReportsOn calls reports →
        (vendor.Reads reports → ∃ payload entries, adapt vendor
            (.list ((question :: reply :: reports.map Report.toMessage).map Message.toValue))
            systemPrompt .null = .ok payload ∧
          payload.messages = .list entries ∧ Continued vendor speech calls reports entries) ∧
        (¬vendor.Reads reports → adapt vendor
            (.list ((question :: reply :: reports.map Report.toMessage).map Message.toValue))
            systemPrompt .null = misuse .content)) := by
  obtain ⟨reply, calls, hread, hreply⟩ := Vendor.readReply_of_says h
  refine ⟨reply, calls, hread, hreply, ?_⟩
  intro hids vendor question reports systemPrompt hasked hcallless hreports
  have hexchange := hreply.exchange hsome hasked hcallless hids
  exact ⟨continued_of_exchange vendor systemPrompt hexchange hreply hreports,
    adapt_of_not_reads systemPrompt hexchange hreports⟩

/-- A reply of the messages service with a text and two calls, the second without arguments. -/
def seatResponse : Value :=
  .dict [("content", .list [
    .dict [("type", .str "text"), ("text", .str "Let me see.")],
    .dict [("type", .str "tool_use"), ("id", .str "t1"), ("name", .str "seats"),
      ("input", .dict [("row", .int 3)])],
    .dict [("type", .str "tool_use"), ("id", .str "t2"), ("name", .str "price")]])]

def seatCalls : List AskedCall :=
  [⟨some "t1", "seats", [("row", .int 3)]⟩, ⟨some "t2", "price", []⟩]

def seatReports : List Report :=
  [⟨"t2", "12"⟩, ⟨"t1", ""⟩]

def seatQuestion : Message where
  role := .str "user"
  content := .str "Which seats?"

/-- The response says a text and makes two calls. -/
theorem says_seatResponse : Vendor.anthropic.Says seatResponse ⟨"Let me see.", seatCalls⟩ := by
  have htext : Anthropic.SaysBlock
      (.dict [("type", .str "text"), ("text", .str "Let me see.")]) ⟨"Let me see.", []⟩ :=
    .text (by simp) (by simp [Value.ifNull])
  have hseats : Anthropic.SaysBlock
      (.dict [("type", .str "tool_use"), ("id", .str "t1"), ("name", .str "seats"),
        ("input", .dict [("row", .int 3)])]) ⟨"", [⟨some "t1", "seats", [("row", .int 3)]⟩]⟩ :=
    .call (by simp) (by simp) (by decide) (by simp) (by decide) (by simp [Value.ifNull])
      ⟨by decide, by decide, by decide⟩
  have hprice : Anthropic.SaysBlock
      (.dict [("type", .str "tool_use"), ("id", .str "t2"), ("name", .str "price")])
      ⟨"", [⟨some "t2", "price", []⟩]⟩ :=
    .call (by simp) (by simp) (by decide) (by simp) (by decide) (by simp [Value.ifNull])
      ⟨by decide, by decide, by decide⟩
  exact .reply (by simp [seatResponse]) (.cons htext (.cons hseats (.cons hprice .nil)))
    ⟨.inl (by simp [seatResponse]), .inl (by simp [seatResponse])⟩

/-- Its calls can be told apart, and the reports are on them. -/
theorem distinguished_seats {calls : List TextCall} (h : List.Forall₂ Answers seatCalls calls) :
    Distinguished calls ∧ ReportsOn calls seatReports := by
  cases h with
  | cons hfirst hrest =>
    cases hrest with
    | cons hsecond hnone =>
      cases hnone
      -- the reply gave both ids, so the calls that were read have them
      have hone := hfirst.id "t1" rfl
      have htwo := hsecond.id "t2" rfl
      refine ⟨⟨by simp [hone, htwo], ?_⟩, ?_⟩
      · intro call hcall
        simp only [List.mem_cons, List.not_mem_nil, or_false] at hcall
        rcases hcall with rfl | rfl
        · rw [hone]
          exact ⟨by decide, by decide⟩
        · rw [htwo]
          exact ⟨by decide, by decide⟩
      · simp only [ReportsOn, seatReports, List.map_cons, List.map_nil, hone, htwo]
        exact .swap _ _ _

/-- What one vendor said is continued with another, with the reports in the other order. -/
theorem continued_of_says_seats :
    ∃ reply calls payload entries, Vendor.anthropic.readReply seatResponse = .ok reply ∧
      adapt (.google "tag") (.list ((seatQuestion :: reply ::
        seatReports.map Report.toMessage).map Message.toValue)) .null .null = .ok payload ∧
      payload.messages = .list entries ∧
      Continued (.google "tag") ⟨"Let me see.", seatCalls⟩ calls seatReports entries := by
  obtain ⟨reply, calls, hread, hreply, hcontinue⟩ :=
    continued_of_says says_seatResponse (by simp [seatCalls])
  obtain ⟨hids, hreports⟩ := distinguished_seats hreply.answers
  have hshort : (Vendor.google "tag").Reads seatReports := by
    intro _ report hreport
    simp only [seatReports, List.mem_cons, List.not_mem_nil, or_false] at hreport
    rcases hreport with rfl | rfl <;> decide
  obtain ⟨payload, entries, hpayload, hmessages, hentries⟩ :=
    (hcontinue hids (.google "tag") seatQuestion seatReports .null rfl rfl hreports).1 hshort
  exact ⟨reply, calls, payload, entries, hread, hpayload, hmessages, hentries⟩

/-- Reports on the calls, the last one first and with a number in it that is too long. -/
def longReports : List Report :=
  [⟨"t2", String.ofList (Number.digits Json.firstLong)⟩, ⟨"t1", ""⟩]

/-- A report with such a number is given to the vendors that take it as its text, and not to the one
that reads it. -/
theorem uncontinued_of_longReports :
    ∃ reply calls, Vendor.anthropic.readReply seatResponse = .ok reply ∧ Distinguished calls ∧
      Repeats reply ⟨"Let me see.", seatCalls⟩ calls ∧ ReportsOn calls longReports ∧
      (∃ payload, adapt .anthropic (.list ((seatQuestion :: reply ::
        longReports.map Report.toMessage).map Message.toValue)) .null .null = .ok payload) ∧
      adapt (.google "tag") (.list ((seatQuestion :: reply ::
        longReports.map Report.toMessage).map Message.toValue)) .null .null =
          misuse .content := by
  obtain ⟨reply, calls, hread, hreply⟩ := Vendor.readReply_of_says says_seatResponse
  obtain ⟨hids, hseats⟩ := distinguished_seats hreply.answers
  have hreports : ReportsOn calls longReports := by
    simpa only [ReportsOn, longReports, seatReports, List.map_cons, List.map_nil] using hseats
  have hexchange : Exchange seatQuestion reply calls :=
    hreply.exchange (by simp [seatCalls]) rfl rfl hids
  have hlong : ¬(Vendor.google "tag").Reads longReports := by
    intro hreads
    have hshort := hreads rfl _ List.mem_cons_self
    rw [Json.isOverlong_digits] at hshort
    cases hshort
  obtain ⟨payload, -, hpayload, -⟩ :=
    continued_of_exchange .anthropic .null hexchange hreply hreports (by rintro ⟨⟩)
  exact ⟨reply, calls, hread, hids, hreply, hreports, ⟨payload, hpayload⟩,
    adapt_of_not_reads .null hexchange hreports hlong⟩

end Payload

end Parley
