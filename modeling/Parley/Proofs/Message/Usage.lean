import Parley.Proofs.Outcome
import Parley.Proofs.Reply.Basic

/-!
# Merging token reports

A stream may report its token counts in several parts. Reports of numbers are merged without a
fault, whatever they leave out, and what comes of it is again a report of numbers.

* `exists_merge`: two reports of numbers have a merge;
* `mergeAll`: the merge of any number of reports, from left to right;
* `mergeAll_of_full`: a last report that leaves nothing out is the merge.
-/

namespace Parley

/-- The newer of two counts is a count. -/
theorem Value.IsCount.ifNull {v alternative : Value} (h : v.IsCount)
    (halternative : alternative.IsCount) : (v.ifNull alternative).IsCount := by
  rcases h with rfl | ⟨n, rfl⟩
  · exact halternative
  · exact .inr ⟨n, rfl⟩

/-- Usage is told apart by what is stored of it. -/
theorem usageValue_injective : Function.Injective usageValue := by
  intro usage other h
  cases usage with
  | none => cases other with
    | none => rfl
    | some other => cases h
  | some usage => cases other with
    | none => cases h
    | some other =>
      have hread := congrArg TokenUsage.ofObject? h
      simpa [usageValue] using hread

namespace TokenUsage

/-- A report whose counts, as far as they are known, are numbers. -/
structure Counted (usage : TokenUsage) : Prop where
  prompt : usage.prompt.IsCount
  completion : usage.completion.IsCount
  total : usage.total.IsCount

def unreported : TokenUsage :=
  ⟨.null, .null, .null⟩

theorem exists_ofCounts {prompt completion total : Value} (hprompt : prompt.IsCount)
    (hcompletion : completion.IsCount) (htotal : total.IsCount) :
    ∃ usage, ofCounts prompt completion total = .ok usage ∧ usage.Counted := by
  by_cases hderived : (total.isNull && !prompt.isNull && !completion.isNull) = true
  · -- the total is derived only if both other counts are known
    rcases hprompt with rfl | ⟨p, rfl⟩
    · simp at hderived
    · rcases hcompletion with rfl | ⟨c, rfl⟩
      · simp at hderived
      · have hsum : ofCounts (.int p) (.int c) total = .ok ⟨.int p, .int c, .int (p + c)⟩ := by
          simp only [ofCounts, hderived, if_true, Value.add_int]
          rfl
        exact ⟨_, hsum, .inr ⟨p, rfl⟩, .inr ⟨c, rfl⟩, .inr ⟨p + c, rfl⟩⟩
  · have hgiven : ofCounts prompt completion total = .ok ⟨prompt, completion, total⟩ := by
      simp only [ofCounts, hderived]
      rfl
    exact ⟨_, hgiven, hprompt, hcompletion, htotal⟩

/-- A report that a vendor sends in counts can be read. -/
theorem exists_report {prompt completion total : Value} (hprompt : prompt.IsCount)
    (hcompletion : completion.IsCount) (htotal : total.IsCount) :
    ∃ reported, report prompt completion total = .ok reported ∧ ∀ u ∈ reported, u.Counted := by
  by_cases hnone : (prompt.isNull && completion.isNull && total.isNull) = true
  · exact ⟨none, by simp [report, hnone], by simp⟩
  · rcases exists_ofCounts hprompt hcompletion htotal with ⟨usage, husage, hcounted⟩
    have hsome : report prompt completion total = .ok (some usage) := by
      simp only [report, hnone, husage]
      rfl
    exact ⟨some usage, hsome, by simpa using hcounted⟩

/-- Two reports of numbers have a merge. -/
theorem exists_merge {old new : TokenUsage} (hold : old.Counted) (hnew : new.Counted) :
    ∃ usage, old.merge new = .ok usage ∧ usage.Counted := by
  apply exists_ofCounts
  · exact hnew.prompt.ifNull hold.prompt
  · exact hnew.completion.ifNull hold.completion
  · split
    · exact hold.total
    · exact hnew.total

/-! ## Any number of reports -/

/-- The merge of reports, from left to right; there is none of no reports. -/
def mergeAll : List TokenUsage → Outcome (Option TokenUsage)
  | [] => .ok none
  | first :: later => return some (← later.foldlM merge first)

theorem mergeAll_singleton (usage : TokenUsage) : mergeAll [usage] = .ok (some usage) := rfl

/-- Merging what there is gives what there is. -/
theorem mergeAll_toList (usage : Option TokenUsage) : mergeAll usage.toList = .ok usage := by
  cases usage with
  | none => rfl
  | some usage => exact mergeAll_singleton usage

/-- Only of no reports there is no usage. -/
theorem eq_nil_of_mergeAll {reports : List TokenUsage} (h : mergeAll reports = .ok none) :
    reports = [] := by
  cases reports with
  | nil => rfl
  | cons first later =>
    rcases Outcome.of_bind_eq_ok h with ⟨usage, -, hnone⟩
    cases hnone

/-- One more report is merged into what the reports before it make. -/
theorem mergeAll_concat {reports : List TokenUsage} {old : TokenUsage} (new : TokenUsage)
    (h : mergeAll reports = .ok (some old)) :
    mergeAll (reports ++ [new]) = (do return some (← old.merge new)) := by
  cases reports with
  | nil => cases h
  | cons first later =>
    rcases Outcome.of_bind_eq_ok h with ⟨usage, hlater, hsome⟩
    cases hsome
    rw [List.cons_append, mergeAll, List.foldlM_append, Outcome.bind_of_ok hlater]
    simp only [List.foldlM_cons, List.foldlM_nil, bind_pure]

/-- A report more is merged into what the others come to. -/
theorem mergeAll_append {reports : List TokenUsage} {old new merged : TokenUsage}
    (h : mergeAll reports = .ok (some old)) (hmerged : old.merge new = .ok merged) :
    mergeAll (reports ++ [new]) = .ok (some merged) := by
  rw [mergeAll_concat new h, Outcome.bind_of_ok hmerged]
  rfl

/-- Where reports have a merge, the first of them have one. -/
theorem exists_mergeAll_of_append {reports later : List TokenUsage} {total : Option TokenUsage}
    (h : mergeAll (reports ++ later) = .ok total) : ∃ early, mergeAll reports = .ok early := by
  cases reports with
  | nil => exact ⟨none, rfl⟩
  | cons first rest =>
    rw [List.cons_append, mergeAll] at h
    rcases Outcome.of_bind_eq_ok h with ⟨usage, husage, -⟩
    rw [List.foldlM_append] at husage
    rcases Outcome.of_bind_eq_ok husage with ⟨early, hearly, -⟩
    exact ⟨some early, Outcome.bind_of_ok hearly⟩

/-- Reports of numbers have a merge, however many they are. -/
theorem exists_mergeAll {reports : List TokenUsage} (h : ∀ u ∈ reports, u.Counted) :
    ∃ total, mergeAll reports = .ok total ∧ ∀ u ∈ total, u.Counted := by
  induction reports using List.reverseRecOn with
  | nil => exact ⟨none, rfl, by simp⟩
  | append_singleton reports new ih =>
    rcases ih fun u hu => h u (by simp [hu]) with ⟨total, htotal, hcounted⟩
    have hnew : new.Counted := h new (by simp)
    cases total with
    | none =>
      cases eq_nil_of_mergeAll htotal
      exact ⟨some new, rfl, by simpa using hnew⟩
    | some old =>
      rcases exists_merge (hcounted old rfl) hnew with ⟨merged, hmerged, hmergedCounted⟩
      exact ⟨some merged, mergeAll_append htotal hmerged, by simpa using hmergedCounted⟩

/-! ## A last report that leaves nothing out -/

/-- A report that leaves no count out. -/
structure Full (usage : TokenUsage) : Prop where
  prompt : usage.prompt.isNull = false
  completion : usage.completion.isNull = false
  total : usage.total.isNull = false

/-- Where both other counts are known, the report leaves out nothing, for the total can be
derived. -/
theorem exists_full_report {counts : TokenUsage} (h : counts.Counted)
    (hprompt : counts.prompt.isNull = false) (hcompletion : counts.completion.isNull = false) :
    ∃ usage, report counts.prompt counts.completion counts.total = .ok (some usage) ∧
      usage.Full ∧ usage.Counted := by
  rcases counts with ⟨prompt, completion, total⟩
  rcases h.prompt with rfl | ⟨p, rfl⟩
  · cases hprompt
  · rcases h.completion with rfl | ⟨c, rfl⟩
    · cases hcompletion
    · rcases h.total with rfl | ⟨t, rfl⟩
      · exact ⟨_, rfl, ⟨rfl, rfl, rfl⟩, ⟨.inr ⟨p, rfl⟩, .inr ⟨c, rfl⟩, .inr ⟨p + c, rfl⟩⟩⟩
      · exact ⟨_, rfl, ⟨rfl, rfl, rfl⟩, ⟨.inr ⟨p, rfl⟩, .inr ⟨c, rfl⟩, .inr ⟨t, rfl⟩⟩⟩

/-- A report that says everything replaces what came before it. -/
theorem merge_of_full (old : TokenUsage) {new : TokenUsage} (h : new.Full) :
    old.merge new = .ok new := by
  simp [merge, ofCounts, Value.ifNull, h.prompt, h.completion, h.total]

/-- A last report that leaves nothing out is the merge, whatever was reported before. -/
theorem mergeAll_of_full {reports : List TokenUsage} {new : TokenUsage}
    (h : ∀ u ∈ reports, u.Counted) (hnew : new.Full) :
    mergeAll (reports ++ [new]) = .ok (some new) := by
  rcases exists_mergeAll h with ⟨total, htotal, -⟩
  cases total with
  | none =>
    cases eq_nil_of_mergeAll htotal
    exact mergeAll_singleton new
  | some old => exact mergeAll_append htotal (merge_of_full old hnew)

end TokenUsage

end Parley
