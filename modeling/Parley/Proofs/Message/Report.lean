import Parley.Proofs.Message.Arguments

/-!
# Reports on calls

The tool messages with which a caller answers the calls of a reply, naming each call by its id and
nothing else.

* `Exchange`: a question and the reply to it, with calls that can be reported on;
* `ReportsOn`: one report on each call, in any order.
-/

namespace Parley

/-- The result of the call with an id. -/
structure Report where
  id : String
  content : String

namespace Report

/-- The tool message of a result. It does not name the function. -/
def toMessage (report : Report) : Message where
  role := .str "tool"
  content := .str report.content
  toolCallId := .str report.id

@[simp] theorem hasRole_toMessage (report : Report) (role : String) :
    report.toMessage.hasRole role = ("tool" == role) := rfl

@[simp] theorem toolCalls_toMessage (report : Report) : report.toMessage.toolCalls = [] := rfl

end Report

/-- An id by which a tool message can name a call: it is not empty, and no blanks surround it. -/
structure UsableId (id : String) : Prop where
  nonempty : id ≠ ""
  unpadded : Text.strip id.toList = id.toList

/-- A usable id is the one that is answered. -/
theorem UsableId.answeredId {report : Report} (h : UsableId report.id) :
    report.toMessage.answeredId = .ok report.id := by
  have hid : (Value.str report.id).truthy = true := Value.truthy_str.2 h.nonempty
  simp only [Message.answeredId, Report.toMessage, Value.orElse, hid, if_true, Value.stripped,
    h.unpadded, String.ofList_toList]

/-- A usable id is all that a vendor asks for. -/
theorem UsableId.requireAnsweredId {report : Report} (h : UsableId report.id) :
    report.toMessage.requireAnsweredId = .ok report.id := by
  rw [Message.requireAnsweredId, Outcome.bind_of_ok h.answeredId, if_neg h.nonempty]
  rfl

/-- The id that a message is found to answer can name a call. -/
theorem Message.WellTyped.usableId {m : Message} {id : String} (h : m.WellTyped)
    (hid : m.requireAnsweredId = .ok id) : UsableId id := by
  rcases h.requireAnsweredId_eq_ok_iff.1 hid with ⟨hsome, rfl⟩
  exact ⟨hsome, by rw [Message.answered, String.toList_ofList, Text.strip_strip]⟩

/-- Calls that can be told apart by ids that tool messages can name. -/
structure Distinguished (calls : List TextCall) : Prop where
  distinct : (calls.map TextCall.id).Nodup
  usable : ∀ call ∈ calls, UsableId call.id

def ReportsOn (calls : List TextCall) (reports : List Report) : Prop :=
  (reports.map Report.id).Perm (calls.map TextCall.id)

namespace ReportsOn

variable {calls : List TextCall} {reports : List Report}

/-- Every report is on one of the calls. -/
theorem exists_call (h : ReportsOn calls reports) {report : Report} (hreport : report ∈ reports) :
    ∃ call ∈ calls, call.id = report.id := by
  have hid : report.id ∈ calls.map TextCall.id := h.subset (List.mem_map_of_mem hreport)
  exact List.mem_map.1 hid

/-- Reports on calls that can be told apart name them by usable ids. -/
theorem usable (h : ReportsOn calls reports) (hids : Distinguished calls) :
    ∀ report ∈ reports, UsableId report.id := by
  intro report hreport
  obtain ⟨call, hcall, hid⟩ := h.exists_call hreport
  rw [← hid]
  exact hids.usable call hcall

/-- If there are calls, there are reports. -/
theorem ne_nil (h : ReportsOn calls reports) (hsome : calls ≠ []) : reports ≠ [] := by
  rintro rfl
  exact hsome (List.map_eq_nil_iff.1 h.symm.eq_nil)

end ReportsOn

/-- A question, and a reply to it that makes calls which can be told apart. -/
structure Exchange (question reply : Message) (calls : List TextCall) : Prop where
  asked : question.hasRole "user" = true
  callless : question.toolCalls = []
  replied : reply.hasRole "assistant" = true
  content : reply.content.IsOptionalText
  made : reply.toolCalls = calls.map TextCall.toValue
  some_made : calls ≠ []
  named : ∀ call ∈ calls, call.name ≠ ""
  spelled : ∀ call ∈ calls, call.WellSpelled
  distinguished : Distinguished calls

end Parley
