import Parley.Proofs.Message.Usage

/-!
# Token counts over a run

A vendor that reports its token counts in several parts leaves out of each part what it does not
know yet. After any number of reports the prompt and the completion are the last that were reported.
The total is looked for in the last report, then made of the two, and only then kept from before.

* `Counts`: what a report says in numbers; `merge_toUsage`: two reports merged, in numbers;
* `ran`: the usage after a run of reports, and `ran_concat`: the run with one report more;
* `totals_of_run`: what is known after each report of a run;
* `repeated_of_run`: a report that says nothing new. It changes nothing, unless the vendor counts
  something into the total that is neither prompt nor completion and the report leaves the total
  out.
-/

namespace Parley

namespace TokenUsage

/-! ## Reports in numbers -/

/-- Numbers that a vendor reports, each of them if it is known. -/
@[ext]
structure Counts where
  prompt : Option Int := none
  completion : Option Int := none
  total : Option Int := none

def countValue : Option Int → Value
  | some n => .int n
  | none => .null

namespace Counts

/-- The sum of prompt and completion, if both are known. -/
def sum (counts : Counts) : Option Int :=
  match counts.prompt, counts.completion with
  | some prompt, some completion => some (prompt + completion)
  | _, _ => none

/-- The total of a report: the one it gives, else the sum of its other counts. -/
def ownTotal (report : Counts) : Option Int :=
  report.total.or report.sum

def toUsage (counts : Counts) : TokenUsage :=
  ⟨countValue counts.prompt, countValue counts.completion, countValue counts.total⟩

def made (report : Counts) : Outcome TokenUsage :=
  ofCounts (countValue report.prompt) (countValue report.completion) (countValue report.total)

def after (old new : Counts) : Counts :=
  let known : Counts := ⟨new.prompt.or old.prompt, new.completion.or old.completion, none⟩
  { known with total := new.total.or (known.sum.or old.total) }

end Counts

theorem countValue_injective : Function.Injective countValue := by
  intro m n h
  cases m <;> cases n <;> cases h <;> rfl

/-- Counts are told apart by what is stored of them. -/
theorem toUsage_injective : Function.Injective Counts.toUsage := by
  intro a b h
  rw [Counts.toUsage, Counts.toUsage, TokenUsage.mk.injEq] at h
  exact Counts.ext (countValue_injective h.1) (countValue_injective h.2.1)
    (countValue_injective h.2.2)

/-- The newer of two counts is stored if it is known. -/
theorem ifNull_countValue (new old : Option Int) :
    (countValue new).ifNull (countValue old) = countValue (new.or old) := by
  cases new <;> rfl

/-- Counts are stored as they are, and the total is added up where it is left out. -/
theorem ofCounts_countValue (counts : Counts) :
    ofCounts (countValue counts.prompt) (countValue counts.completion) (countValue counts.total) =
      .ok { counts with total := counts.total.or counts.sum }.toUsage := by
  rcases counts with ⟨_ | prompt, _ | completion, _ | total⟩ <;> rfl

theorem made_eq (report : Counts) :
    report.made = .ok { report with total := report.ownTotal }.toUsage :=
  ofCounts_countValue report

/-- Merging in numbers. -/
theorem merge_toUsage (old new : Counts) :
    old.toUsage.merge new.toUsage = .ok (old.after new).toUsage := by
  simp only [merge, Counts.toUsage, Counts.after, ifNull_countValue]
  generalize new.prompt.or old.prompt = prompt
  generalize new.completion.or old.completion = completion
  cases new.total with
  | some total => exact ofCounts_countValue ⟨prompt, completion, some total⟩
  | none =>
    -- the old total is handed on only if there is no sum to take its place
    have hkept (h : Counts.sum ⟨prompt, completion, old.total⟩ = none) :
        ofCounts (countValue prompt) (countValue completion) (countValue old.total) =
          .ok (Counts.toUsage ⟨prompt, completion, old.total⟩) := by
      simpa only [h, Option.or_none] using ofCounts_countValue ⟨prompt, completion, old.total⟩
    cases prompt with
    | none => exact hkept rfl
    | some prompt =>
      cases completion with
      | none => exact hkept rfl
      | some completion => exact ofCounts_countValue ⟨some prompt, some completion, none⟩

/-! ## A run of reports -/

/-- The usage after a run of reports; there is none before the first. -/
def ran (reports : List Counts) : Outcome (Option TokenUsage) := do
  mergeAll (← reports.mapM Counts.made)

/-- What is made of reports is the reports with their totals. -/
theorem mapM_made (reports : List Counts) :
    reports.mapM Counts.made =
      .ok (reports.map fun report => { report with total := report.ownTotal }.toUsage) :=
  Outcome.mapM_eq_ok_iff.2 (by simp [List.forall₂_map_right_iff, made_eq, List.forall₂_same])

/-- Merging reports is merging what is stored of them. -/
theorem ran_eq (reports : List Counts) :
    ran reports =
      mergeAll (reports.map fun report => { report with total := report.ownTotal }.toUsage) :=
  Outcome.bind_of_ok (mapM_made reports)

/-- What one more report makes of the counts so far, if there are any. -/
def Counts.next (before : Option Counts) (last : Counts) : Counts :=
  let report : Counts := { last with total := last.ownTotal }
  match before with
  | none => report
  | some old => old.after report

theorem ran_concat {early : List Counts} {before : Option Counts}
    (h : ran early = .ok (before.map Counts.toUsage)) (last : Counts) :
    ran (early ++ [last]) = .ok (some (Counts.next before last).toUsage) := by
  rw [ran_eq] at h ⊢
  rw [List.map_append]
  cases before with
  | none =>
    have hnone := eq_nil_of_mergeAll h
    rw [hnone]
    exact mergeAll_singleton _
  | some old => exact mergeAll_append h (merge_toUsage old _)

/-- The last number that reports give, if one of them gives it. -/
def lastKnown (part : Counts → Option Int) (reports : List Counts) : Option Int :=
  (reports.filterMap part).getLast?

/-- The last report counts if it knows the number, and else those before it. -/
theorem lastKnown_concat (part : Counts → Option Int) (early : List Counts) (last : Counts) :
    lastKnown part (early ++ [last]) = (part last).or (lastKnown part early) := by
  cases h : part last <;> simp [lastKnown, List.filterMap_append, h]

/-- What a run of reports has come to. -/
structure Latest (reports : List Counts) (counts : Counts) : Prop where
  prompt : counts.prompt = lastKnown Counts.prompt reports
  completion : counts.completion = lastKnown Counts.completion reports
  /-- A total that is never reported is the sum of the counts as they are now. -/
  total : (∀ report ∈ reports, report.total = none) → counts.total = counts.sum

namespace Counts

variable {old new : Counts}

/-- A report without a total of its own has the sum for one. -/
theorem ownTotal_of_none {report : Counts} (h : report.total = none) :
    report.ownTotal = report.sum := by
  rw [ownTotal, h, Option.none_or]

/-- A report that gives both counts settles the sum. -/
theorem sum_after_of_sum {n : Int} (h : new.sum = some n) : (old.after new).sum = some n := by
  rcases new with ⟨_ | prompt, _ | completion, total⟩ <;> cases h
  rfl

/-- What has once a sum keeps having one. -/
theorem sum_of_after (h : (old.after new).sum = none) : old.sum = none := by
  rcases old with ⟨_ | prompt, _ | completion, total⟩
  · rfl
  · rfl
  · rfl
  · -- both counts are known, then and later
    rcases new with ⟨_ | prompt', _ | completion', total'⟩ <;> cases h

end Counts

/-- One more report is the first place to look for the total, before what is derived and what was
known. -/
theorem total_next (before : Option Counts) (last : Counts) :
    (Counts.next before last).total =
      last.ownTotal.or ((Counts.next before last).sum.or (before.bind Counts.total)) := by
  cases before with
  | none =>
    have hsum : (Counts.next none last).sum = last.sum := rfl
    rw [hsum]
    cases hown : last.ownTotal with
    | some total => simp [Counts.next, hown]
    | none =>
      have hnone : last.sum = none := (Option.or_eq_none_iff.1 hown).2
      simp [Counts.next, hown, hnone]
  | some old => rfl

/-- A merge keeps the latest of every count. This is the step of `latest_of_ran`. -/
theorem latest_next {early : List Counts} {before : Option Counts}
    (hnone : before = none → early = []) (h : ∀ old ∈ before, Latest early old) (last : Counts) :
    Latest (early ++ [last]) (Counts.next before last) := by
  cases before with
  | none =>
    cases hnone rfl
    refine ⟨by simp [Counts.next, lastKnown], by simp [Counts.next, lastKnown], ?_⟩
    intro hplain
    exact Counts.ownTotal_of_none (hplain last (by simp))
  | some old =>
    have hold := h old rfl
    refine ⟨?_, ?_, ?_⟩
    · rw [lastKnown_concat, ← hold.prompt]
      rfl
    · rw [lastKnown_concat, ← hold.completion]
      rfl
    · intro hplain
      rw [total_next, Counts.ownTotal_of_none (hplain last (by simp))]
      cases hlast : last.sum with
      | some n => exact (Counts.sum_after_of_sum hlast).symm
      | none =>
        rw [Option.none_or]
        cases hsum : (Counts.next (some old) last).sum with
        | some n => rfl
        | none =>
          -- without a sum now there was none before, so there was no total either
          rw [Option.none_or]
          have hbefore := hold.total fun report hreport => hplain report (by simp [hreport])
          exact hbefore.trans (Counts.sum_of_after hsum)

/-- A run of reports has a usage, which tells what was reported last. -/
theorem exists_ran (reports : List Counts) :
    ∃ before : Option Counts, ran reports = .ok (before.map Counts.toUsage) ∧
      (before = none → reports = []) ∧ ∀ counts ∈ before, Latest reports counts := by
  induction reports using List.reverseRecOn with
  | nil => exact ⟨none, rfl, fun _ => rfl, by simp⟩
  | append_singleton early last ih =>
    rcases ih with ⟨before, hran, hnone, hlatest⟩
    refine ⟨some (Counts.next before last), ran_concat hran last, by simp, ?_⟩
    intro counts hcounts
    cases hcounts
    exact latest_next hnone hlatest last

/-- After any run every count is the latest that was reported. -/
theorem latest_of_ran {reports : List Counts} {counts : Counts}
    (h : ran reports = .ok (some counts.toUsage)) : Latest reports counts := by
  rcases exists_ran reports with ⟨before, hran, -, hlatest⟩
  have hsame := Except.ok.inj (hran.symm.trans h)
  rcases Option.map_eq_some_iff.1 hsame with ⟨same, hbefore, heq⟩
  cases toUsage_injective heq
  exact hlatest counts hbefore

/-- After every report of a run the prompt and the completion are the last that were reported. The
total is that of the report, else the sum of what is now known, else the one from before; if no
report gives one it is the sum, and unknown as long as the sum is. -/
theorem totals_of_run (early : List Counts) (last : Counts) :
    ∃ (before : Option Counts) (counts : Counts),
      ran early = .ok (before.map Counts.toUsage) ∧
      ran (early ++ [last]) = .ok (some counts.toUsage) ∧
      counts.prompt = lastKnown Counts.prompt (early ++ [last]) ∧
      counts.completion = lastKnown Counts.completion (early ++ [last]) ∧
      counts.total = last.ownTotal.or (counts.sum.or (before.bind Counts.total)) ∧
      ((∀ report ∈ early ++ [last], report.total = none) → counts.total = counts.sum) := by
  rcases exists_ran early with ⟨before, hran, hnone, hlatest⟩
  have hnext := latest_next hnone hlatest last
  exact ⟨before, Counts.next before last, hran, ran_concat hran last, hnext.prompt,
    hnext.completion, total_next before last, hnext.total⟩

/-! ## Reports that say nothing new -/

/-- A report of which every count that is known, its own total among them, is known already. -/
structure NothingNew (counts report : Counts) : Prop where
  prompt : ∀ n ∈ report.prompt, counts.prompt = some n
  completion : ∀ n ∈ report.completion, counts.completion = some n
  total : ∀ n ∈ report.ownTotal, counts.total = some n

theorem or_of_known {new old : Option Int} (h : ∀ n ∈ new, old = some n) : new.or old = old := by
  cases new with
  | none => rfl
  | some n => exact (h n rfl).symm

/-- A report with nothing new leaves the counts as they are, but for the total. -/
theorem after_of_nothingNew {counts report : Counts} (h : NothingNew counts report) :
    counts.after { report with total := report.ownTotal } =
      { counts with total := report.ownTotal.or (counts.sum.or counts.total) } := by
  simp only [Counts.after, or_of_known h.prompt, or_of_known h.completion]
  rfl

theorem after_eq_iff {counts report : Counts} (h : NothingNew counts report) :
    counts.after { report with total := report.ownTotal } = counts ↔
      report.ownTotal.isSome = true ∨ ∀ n ∈ counts.sum, counts.total = some n := by
  rw [after_of_nothingNew h, Counts.ext_iff]
  cases hown : report.ownTotal with
  | some n => simp [h.total n hown]
  | none =>
    cases hsum : counts.sum with
    | none => simp
    | some n => simp [eq_comm]

/-- A report that says nothing new leaves the total alone exactly if it repeats it, or if it is what
would be derived. Otherwise the sum takes its place. -/
theorem repeated_of_run {reports : List Counts} {counts report : Counts}
    (hran : ran reports = .ok (some counts.toUsage)) (h : NothingNew counts report) :
    ∃ usage merged, report.made = .ok usage ∧ counts.toUsage.merge usage = .ok merged ∧
      merged.prompt = counts.toUsage.prompt ∧ merged.completion = counts.toUsage.completion ∧
      (merged = counts.toUsage ↔
        report.ownTotal.isSome = true ∨ ∀ n ∈ counts.sum, counts.total = some n) ∧
      (merged ≠ counts.toUsage → merged.total = countValue counts.sum) ∧
      ((∀ earlier ∈ reports, earlier.total = none) → merged = counts.toUsage) := by
  have hmerge := merge_toUsage counts { report with total := report.ownTotal }
  have hsame := (toUsage_injective.eq_iff (b := counts)).trans (after_eq_iff h)
  have hafter := after_of_nothingNew h
  refine ⟨_, _, made_eq report, hmerge, by rw [hafter]; rfl, by rw [hafter]; rfl, hsame, ?_, ?_⟩
  · intro hne
    rcases not_or.1 fun hneutral => hne (hsame.2 hneutral) with ⟨hown, hsum⟩
    rcases not_forall.1 hsum with ⟨n, hn⟩
    rcases Classical.not_imp.1 hn with ⟨hn, -⟩
    rw [hafter, Option.not_isSome_iff_eq_none.1 hown, Option.mem_def.1 hn]
    rfl
  · intro hplain
    have htotal := (latest_of_ran hran).total hplain
    refine hsame.2 (.inr ?_)
    intro n hn
    rw [htotal]
    exact hn

/-- A vendor that counts what the model thinks into the total, and then reports the prompt alone. -/
theorem repeated_of_run_thinking :
    ran [⟨some 5, none, none⟩, ⟨none, some 7, some 40⟩] =
        .ok (some (Counts.toUsage ⟨some 5, some 7, some 40⟩)) ∧
      NothingNew ⟨some 5, some 7, some 40⟩ ⟨some 5, none, none⟩ ∧
      ∃ usage merged, Counts.made ⟨some 5, none, none⟩ = .ok usage ∧
        (Counts.toUsage ⟨some 5, some 7, some 40⟩).merge usage = .ok merged ∧
        merged.prompt = .int 5 ∧ merged.completion = .int 7 ∧ merged.total = .int 12 := by
  have hran : ran [⟨some 5, none, none⟩, ⟨none, some 7, some 40⟩] =
      .ok (some (Counts.toUsage ⟨some 5, some 7, some 40⟩)) := rfl
  have hnothing : NothingNew ⟨some 5, some 7, some 40⟩ ⟨some 5, none, none⟩ :=
    ⟨by simp, by simp, by simp [Counts.ownTotal, Counts.sum]⟩
  rcases repeated_of_run hran hnothing with
    ⟨usage, merged, hmade, hmerged, hprompt, hcompletion, hsame, hsum, -⟩
  have hne : merged ≠ Counts.toUsage ⟨some 5, some 7, some 40⟩ := by
    intro heq
    have hneutral := hsame.1 heq
    revert hneutral
    decide
  exact ⟨hran, hnothing, usage, merged, hmade, hmerged, hprompt, hcompletion, hsum hne⟩

/-- Even a report that says nothing at all takes away a total that is more than the sum. -/
theorem lowered_of_empty :
    ran [⟨some 5, some 7, some 40⟩] = .ok (some ⟨.int 5, .int 7, .int 40⟩) ∧
      NothingNew ⟨some 5, some 7, some 40⟩ {} ∧ Counts.made {} = .ok unreported ∧
      (TokenUsage.mk (.int 5) (.int 7) (.int 40)).merge unreported =
        .ok ⟨.int 5, .int 7, .int 12⟩ :=
  ⟨rfl, ⟨by simp, by simp, by simp [Counts.ownTotal, Counts.sum]⟩, rfl, rfl⟩

end TokenUsage

end Parley
