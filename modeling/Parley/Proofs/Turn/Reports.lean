import Parley.Proofs.Conversation
import Parley.Proofs.Transcript.Anthropic
import Parley.Proofs.Transcript.Google
import Parley.Proofs.Transcript.OpenAI

/-!
# Turns of an exchange with reports

The entries that a question, a reply with calls and the reports on them become. A report has an
entry of its own with one vendor; with the two others the reports join one entry behind the calls,
by induction over the reports with the entry that is growing kept general.
-/

namespace Parley

variable {question reply : Message} {calls : List TextCall} {reports : List Report}

/-! ## Chat completions -/

namespace OpenAI

def Turn.ofReport (report : Report) : Turn :=
  .result report.id (.str report.content)

/-- The first vendor's entry of a report names its call. -/
theorem ofMessage_report {report : Report} (hid : UsableId report.id) :
    Turn.ofMessage report.toMessage = .ok (.ofReport report) := by
  have hcontent : report.toMessage.content.orElse (.str "") = .str report.content :=
    Value.orElse_empty_str report.content
  rw [ofMessage_result rfl, Outcome.bind_of_ok hid.requireAnsweredId, hcontent]
  rfl

/-- An exchange becomes a text, the calls and a result for every report. -/
theorem mapM_exchange (h : Exchange question reply calls) (hreports : ReportsOn calls reports) :
    (question :: reply :: reports.map Report.toMessage).mapM Turn.ofMessage =
      .ok (.user (question.content.orElse (.str "")) ::
        .calls (reply.content.orElse .null) (calls.map Call.ofText) ::
          reports.map Turn.ofReport) := by
  have hresults : (reports.map Report.toMessage).mapM Turn.ofMessage =
      .ok (reports.map Turn.ofReport) :=
    Outcome.mapM_map_of_ok fun report hreport =>
      ofMessage_report (hreports.usable h.distinguished report hreport)
  rw [List.mapM_cons, Outcome.bind_of_ok (ofMessage_user h.asked), List.mapM_cons,
    Outcome.bind_of_ok (ofMessage_calling h.replied h.made h.some_made),
    Outcome.bind_of_ok hresults]
  rfl

end OpenAI

/-! ## The messages service -/

namespace Anthropic

def ToolResult.ofReport (report : Report) : ToolResult :=
  ⟨report.id, .str report.content⟩

/-- The second vendor's entry of a report has its block. -/
theorem ofMessage_report {report : Report} (hid : UsableId report.id) :
    Turn.ofMessage report.toMessage = .ok (.results [.ofReport report]) := by
  have hcontent : report.toMessage.content.orElse (.str "") = .str report.content :=
    Value.orElse_empty_str report.content
  rw [ofMessage_result rfl, Outcome.bind_of_ok hid.requireAnsweredId, hcontent]
  rfl

/-- Reports join an entry with results. -/
theorem turnsAfter_joined (results : List ToolResult) (earlier : List Turn)
    (hids : ∀ report ∈ reports, UsableId report.id) :
    turnsAfter (.results results :: earlier) (reports.map Report.toMessage) =
      .ok (.results (results ++ reports.map ToolResult.ofReport) :: earlier) := by
  induction reports generalizing results with
  | nil => simp [turnsAfter]
  | cons report rest ih =>
    have hreport := ofMessage_report (hids report (by simp))
    have hpush : push (.results results :: earlier) (.results [.ofReport report]) =
        .ok (.results (results ++ [.ofReport report]) :: earlier) := rfl
    rw [List.map_cons, turnsAfter, Outcome.bind_of_ok hreport, Outcome.bind_of_ok hpush,
      ih _ fun r hr => hids r (by simp [hr])]
    simp

/-- Reports behind an entry with calls share an entry. -/
theorem turnsAfter_reports (text : Option Value) (uses : List ToolUse) (earlier : List Turn)
    (hsome : reports ≠ []) (hids : ∀ report ∈ reports, UsableId report.id) :
    turnsAfter (.toolUses text uses :: earlier) (reports.map Report.toMessage) =
      .ok (.results (reports.map ToolResult.ofReport) :: .toolUses text uses :: earlier) := by
  cases reports with
  | nil => exact absurd rfl hsome
  | cons report rest =>
    have hreport := ofMessage_report (hids report (by simp))
    -- the first report opens an entry, the others join it
    have hpush : push (.toolUses text uses :: earlier) (.results [.ofReport report]) =
        .ok (.results [.ofReport report] :: .toolUses text uses :: earlier) := rfl
    rw [List.map_cons, turnsAfter, Outcome.bind_of_ok hreport, Outcome.bind_of_ok hpush,
      turnsAfter_joined _ _ fun r hr => hids r (by simp [hr])]
    rfl

/-- The blocks of all reports are in one entry. -/
theorem turns_exchange (h : Exchange question reply calls) (hreports : ReportsOn calls reports) :
    turns (question :: reply :: reports.map Report.toMessage) =
      .ok [.user (question.content.orElse (.str "")),
        .toolUses (if reply.content.truthy then some reply.content else none)
          (calls.map ToolUse.ofText),
        .results (reports.map ToolResult.ofReport)] := by
  have hreply := ofMessage_calling h.replied h.made h.some_made
  rw [Outcome.bind_of_ok (mapM_toolUse_ofValue h.spelled)] at hreply
  have hpush : push [] (.user (question.content.orElse (.str ""))) =
      .ok [.user (question.content.orElse (.str ""))] := rfl
  rw [turns, turnsAfter, Outcome.bind_of_ok (ofMessage_user h.asked), Outcome.bind_of_ok hpush,
    turnsAfter, Outcome.bind_of_ok hreply, Outcome.bind_of_ok (push_toolUses _ _ _),
    turnsAfter_reports _ _ _ (hreports.ne_nil h.some_made) (hreports.usable h.distinguished)]
  rfl

end Anthropic

/-! ## Content generation -/

namespace Google

/-- Where no call has the id, the name is what was found before. -/
theorem nameAmong_of_not_mem {id : String} (found : Value) (h : id ∉ calls.map TextCall.id) :
    nameAmong (.str id) found (calls.map TextCall.toValue) = .ok found := by
  induction calls with
  | nil => rfl
  | cons call rest ih =>
    have hne : (call.id == id) = false := by
      simp only [List.map_cons, List.mem_cons, not_or] at h
      simpa using Ne.symm h.1
    rw [List.map_cons, nameAmong, Outcome.bind_of_ok call.attr_id]
    simp only [same_str, hne, Bool.false_eq_true, if_false]
    exact ih fun hmem => h (List.mem_cons_of_mem _ hmem)

/-- Among calls with ids of their own, the id of a call finds its function. -/
theorem nameAmong_of_mem {call : TextCall} (found : Value)
    (hdistinct : (calls.map TextCall.id).Nodup) (h : call ∈ calls) :
    nameAmong (.str call.id) found (calls.map TextCall.toValue) = .ok (.str call.name) := by
  induction calls generalizing found with
  | nil => cases h
  | cons first rest ih =>
    rw [List.map_cons, List.nodup_cons] at hdistinct
    rw [List.map_cons, nameAmong, Outcome.bind_of_ok first.attr_id]
    simp only [same_str]
    -- a later call with the same id would replace the name, but there is none
    rcases List.mem_cons.1 h with rfl | hrest
    · rw [if_pos (by simp), Outcome.bind_of_ok call.attr_name]
      exact nameAmong_of_not_mem _ hdistinct.1
    · have hne : (first.id == call.id) = false := by
        refine beq_false_of_ne fun heq => hdistinct.1 ?_
        rw [heq]
        exact List.mem_map_of_mem hrest
      rw [hne, if_neg (by simp)]
      exact ih found hdistinct.2 hrest

/-- Messages without calls add nothing to what was found. -/
theorem nameIn_of_no_calls {ms : List Message} (id found : Value)
    (h : ∀ m ∈ ms, m.toolCalls = []) : nameIn id found ms = .ok found := by
  induction ms generalizing found with
  | nil => rfl
  | cons m rest ih =>
    have hnone : nameAmong id found m.toolCalls = .ok found := by
      rw [h m (by simp)]
      rfl
    rw [nameIn, Outcome.bind_of_ok hnone]
    exact ih found fun x hx => h x (by simp [hx])

/-- A result answers by its own name if it has one. -/
theorem answeredName_of_own {m : Message} (seen : List Message) (h : m.name.truthy = true) :
    answeredName seen m = .ok m.name := by
  simp [answeredName, h, pure, Except.pure, bind, Except.bind]

/-- A nameless result answers by the name of the call that was found. -/
theorem answeredName_of_found {seen : List Message} {m : Message} {name : Value}
    (hnameless : ¬m.name.truthy = true) (hid : m.toolCallId.truthy = true)
    (hfound : nameIn m.toolCallId .null (beforeFirst seen m) = .ok name)
    (hname : name.truthy = true) :
    answeredName seen m = .ok name := by
  unfold answeredName
  simp only [hnameless, hid, if_true]
  rw [Outcome.bind_of_ok hfound, if_pos hname]
  rfl

/-- It cannot be converted if no name was found. -/
theorem answeredName_of_unfound {seen : List Message} {m : Message}
    (hnameless : ¬m.name.truthy = true)
    (hnone : ¬m.toolCallId.truthy = true ∨
      ∃ name, nameIn m.toolCallId .null (beforeFirst seen m) = .ok name ∧ ¬name.truthy = true) :
    answeredName seen m = invalid (.unnamedResult m.toolCallId) := by
  unfold answeredName
  by_cases hid : m.toolCallId.truthy = true
  · rcases hnone.resolve_left (not_not_intro hid) with ⟨name, hfound, hempty⟩
    simp only [hnameless, hid, if_true]
    rw [Outcome.bind_of_ok hfound, if_neg hempty]
    rfl
  · simp only [hnameless, hid]
    rfl

/-- A report on a call finds the function of the call, whatever reports came before it. -/
theorem answeredName_report (h : Exchange question reply calls) (past : List Report)
    {report : Report} {call : TextCall} (hcall : call ∈ calls) (hid : call.id = report.id) :
    answeredName (question :: reply :: past.map Report.toMessage) report.toMessage =
      .ok (.str call.name) := by
  have hquestion : nameAmong (.str report.id) .null question.toolCalls = .ok .null := by
    rw [h.callless]
    rfl
  have hreply : nameAmong (.str report.id) .null reply.toolCalls = .ok (.str call.name) := by
    rw [h.made, ← hid]
    exact nameAmong_of_mem .null h.distinguished.distinct hcall
  -- reports make no calls, so those before this one change nothing
  have hpast : nameIn (.str report.id) (.str call.name) (past.map Report.toMessage) =
      .ok (.str call.name) := by
    refine nameIn_of_no_calls _ _ fun m hm => ?_
    obtain ⟨other, -, rfl⟩ := List.mem_map.1 hm
    rfl
  have hfound : nameIn (.str report.id) .null (question :: reply :: past.map Report.toMessage) =
      .ok (.str call.name) := by
    rw [nameIn, Outcome.bind_of_ok hquestion, nameIn, Outcome.bind_of_ok hreply, hpast]
  have htruthy : (Value.str report.id).truthy = true := by
    rw [← hid]
    exact Value.truthy_str.2 (h.distinguished.usable call hcall).nonempty
  have hall : beforeFirst (question :: reply :: past.map Report.toMessage) report.toMessage =
      question :: reply :: past.map Report.toMessage :=
    beforeFirst_eq_self fun _ _ => Message.isAt_unmarked rfl
  rw [← hall] at hfound
  exact answeredName_of_found (by rintro ⟨⟩) htruthy hfound
    (Value.truthy_str.2 (h.named call hcall))

/-- A part that reports on one of some calls, under the name of its function. -/
def FunctionResponse.ReportsOn (calls : List TextCall) (report : Report)
    (response : FunctionResponse) : Prop :=
  ∃ call ∈ calls, call.id = report.id ∧
    response = ⟨.str call.name, responseObject report.content⟩

/-- A report is given as an object or under a key, unless a number in it is too long. -/
theorem responseFields_report (report : Report) :
    responseFields report.toMessage.content =
      if Json.isOverlong report.content then misuse .content
      else .ok (responseObject report.content) :=
  responseFields_typed (.inr ⟨report.content, rfl⟩)

/-- A report on one of the calls becomes a response under its function's name. -/
theorem ofMessage_report (h : Exchange question reply calls) (past : List Report)
    {report : Report} (hreport : ∃ call ∈ calls, call.id = report.id)
    (hread : Json.isOverlong report.content = false) :
    ∃ response : FunctionResponse, response.ReportsOn calls report ∧
      Turn.ofMessage (question :: reply :: past.map Report.toMessage) report.toMessage =
        .ok (.responses [response]) := by
  obtain ⟨call, hcall, hid⟩ := hreport
  refine ⟨_, ⟨call, hcall, hid, rfl⟩, ?_⟩
  have hfields : responseFields report.toMessage.content = .ok (responseObject report.content) := by
    rw [responseFields_report, hread]
    rfl
  rw [ofMessage_result _ rfl, Outcome.bind_of_ok (answeredName_report h past hcall hid),
    Outcome.bind_of_ok hfields]
  rfl

/-- A report with a number that is too long cannot be converted. -/
theorem ofMessage_overlong (h : Exchange question reply calls) (past : List Report)
    {report : Report} (hreport : ∃ call ∈ calls, call.id = report.id)
    (hlong : Json.isOverlong report.content = true) :
    Turn.ofMessage (question :: reply :: past.map Report.toMessage) report.toMessage =
      misuse .content := by
  obtain ⟨call, hcall, hid⟩ := hreport
  rw [ofMessage_result _ rfl, Outcome.bind_of_ok (answeredName_report h past hcall hid),
    responseFields_report, hlong]
  rfl

/-- Reports of which one cannot be read have no entries. -/
theorem turnsAfter_overlong (h : Exchange question reply calls) (past : List Report)
    (before : List Turn) (hreports : ∀ report ∈ reports, ∃ call ∈ calls, call.id = report.id)
    (hlong : ∃ report ∈ reports, Json.isOverlong report.content = true) :
    turnsAfter (question :: reply :: past.map Report.toMessage) before
      (reports.map Report.toMessage) = misuse .content := by
  induction reports generalizing past before with
  | nil => simp at hlong
  | cons report rest ih =>
    rw [List.map_cons, turnsAfter]
    -- the first report that cannot be read ends it
    cases hread : Json.isOverlong report.content with
    | true =>
      rw [ofMessage_overlong h past (hreports report (by simp)) hread]
      rfl
    | false =>
      obtain ⟨response, -, hresponse⟩ := ofMessage_report h past (hreports report (by simp)) hread
      have hrest := ih (past ++ [report]) (push before (.responses [response]))
        (fun r hr => hreports r (by simp [hr])) (by simpa [hread] using hlong)
      rw [Outcome.bind_of_ok hresponse]
      simpa using hrest

/-- Reports join an entry with results. -/
theorem turnsAfter_joined (h : Exchange question reply calls) (past : List Report)
    (responses : List FunctionResponse) (earlier : List Turn)
    (hreports : ∀ report ∈ reports, ∃ call ∈ calls, call.id = report.id)
    (hread : ∀ report ∈ reports, Json.isOverlong report.content = false) :
    ∃ new, List.Forall₂ (FunctionResponse.ReportsOn calls) reports new ∧
      turnsAfter (question :: reply :: past.map Report.toMessage) (.responses responses :: earlier)
        (reports.map Report.toMessage) = .ok (.responses (responses ++ new) :: earlier) := by
  induction reports generalizing past responses with
  | nil => exact ⟨[], .nil, by simp [turnsAfter]⟩
  | cons report rest ih =>
    obtain ⟨response, hmade, hresponse⟩ :=
      ofMessage_report h past (hreports report (by simp)) (hread report (by simp))
    obtain ⟨new, hall, hnew⟩ := ih (past ++ [report]) (responses ++ [response])
      (fun r hr => hreports r (by simp [hr])) fun r hr => hread r (by simp [hr])
    refine ⟨response :: new, .cons hmade hall, ?_⟩
    rw [List.map_cons, turnsAfter, Outcome.bind_of_ok hresponse]
    simpa [push] using hnew

/-- Reports behind an entry with calls share an entry. -/
theorem turnsAfter_reports (h : Exchange question reply calls) (text : Option Value)
    (made : List FunctionCall) (earlier : List Turn) (hsome : reports ≠ [])
    (hreports : ∀ report ∈ reports, ∃ call ∈ calls, call.id = report.id)
    (hread : ∀ report ∈ reports, Json.isOverlong report.content = false) :
    ∃ new, List.Forall₂ (FunctionResponse.ReportsOn calls) reports new ∧
      turnsAfter [question, reply] (.calls text made :: earlier) (reports.map Report.toMessage) =
        .ok (.responses new :: .calls text made :: earlier) := by
  cases reports with
  | nil => exact absurd rfl hsome
  | cons report rest =>
    obtain ⟨response, hmade, hresponse⟩ :=
      ofMessage_report h [] (hreports report (by simp)) (hread report (by simp))
    have hrest : ∀ r ∈ rest, ∃ call ∈ calls, call.id = r.id := fun r hr => hreports r (by simp [hr])
    obtain ⟨new, hall, hnew⟩ :=
      turnsAfter_joined h [report] [response] (.calls text made :: earlier) hrest
        fun r hr => hread r (by simp [hr])
    refine ⟨response :: new, .cons hmade hall, ?_⟩
    rw [List.map_cons, turnsAfter]
    simp only [List.map_nil] at hresponse
    rw [Outcome.bind_of_ok hresponse]
    exact hnew

/-- An exchange becomes a text, the calls and one entry with all responses, if the reports can be
read. -/
theorem turns_exchange (h : Exchange question reply calls) (hreports : ReportsOn calls reports)
    (hread : ∀ report ∈ reports, Json.isOverlong report.content = false) :
    ∃ new, List.Forall₂ (FunctionResponse.ReportsOn calls) reports new ∧
      turns (question :: reply :: reports.map Report.toMessage) =
        .ok [.user (question.content.orElse (.str "")),
          .calls (if reply.content.truthy then some reply.content else none)
            (calls.map FunctionCall.ofText),
          .responses new] := by
  have hreply := ofMessage_calling [question] h.replied h.made h.some_made
  rw [Outcome.bind_of_ok (mapM_functionCall_ofValue h.spelled)] at hreply
  obtain ⟨new, hall, hnew⟩ := turnsAfter_reports h
    (if reply.content.truthy then some reply.content else none) (calls.map FunctionCall.ofText)
    [.user (question.content.orElse (.str ""))] (hreports.ne_nil h.some_made)
    (fun report hreport => hreports.exists_call hreport) hread
  refine ⟨new, hall, ?_⟩
  rw [turns, turnsAfter, Outcome.bind_of_ok (ofMessage_user [] h.asked), turnsAfter,
    List.nil_append, Outcome.bind_of_ok hreply, push_calls]
  exact Outcome.bind_of_ok hnew

theorem turns_overlong (h : Exchange question reply calls) (hreports : ReportsOn calls reports)
    (hlong : ∃ report ∈ reports, Json.isOverlong report.content = true) :
    turns (question :: reply :: reports.map Report.toMessage) = misuse .content := by
  have hreply := ofMessage_calling [question] h.replied h.made h.some_made
  rw [Outcome.bind_of_ok (mapM_functionCall_ofValue h.spelled)] at hreply
  have hlater (before : List Turn) := turnsAfter_overlong h [] before
    (fun report hreport => hreports.exists_call hreport) hlong
  rw [turns, turnsAfter, Outcome.bind_of_ok (ofMessage_user [] h.asked), turnsAfter,
    List.nil_append, Outcome.bind_of_ok hreply]
  exact congrArg (fun after => after >>= fun found => pure found.reverse) (hlater _)

end Google

end Parley
