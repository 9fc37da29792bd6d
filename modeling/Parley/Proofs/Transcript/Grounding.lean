import Parley.Proofs.Conversation
import Parley.Proofs.Transcript.Anthropic
import Parley.Proofs.Transcript.OpenAI

/-!
# Results and the calls before them

A result belongs to a call that was made before it. Two vendors know calls by their ids: there the
id of a result is that of a call in an earlier entry, although results share entries and system
messages are gone.

* `RefersTo`: what a result answers is the id of a call in some entries;
* `Grounded`: entries in which every result refers to entries before its own;
* `Grounds`: what holds of the entries so far, kept by every entry that is added.
-/

namespace Parley

/-! ## Ids of calls -/

def MakesCallOf (id : String) (parts : List Part) : Prop :=
  ∃ name arguments, Part.call (some (.str id)) name arguments ∈ parts

/-- What answers a call has the id, which is not blank, of a call that is made in some entries. -/
def RefersTo (vendor : Vendor) (earlier : List Value) (answers : Value) : Prop :=
  ∃ id : String, answers = .str id ∧ Text.strip id.toList ≠ [] ∧
    ∃ entry ∈ earlier, MakesCallOf id (vendor.readParts entry)

/-- Entries, listed with the nearest first, in which every result refers to a call in an entry
before its own. -/
inductive Grounded (vendor : Vendor) : List Value → Prop where
  | nil : Grounded vendor []
  | entry {entry : Value} {earlier : List Value}
      (results : ∀ answers content, Part.result answers content ∈ vendor.readParts entry →
        RefersTo vendor earlier answers)
      (before : Grounded vendor earlier) : Grounded vendor (entry :: earlier)

/-- A result in a grounded payload refers to what stands before its entry. -/
theorem Grounded.of_suffix {vendor : Vendor} {entry : Value} {nearer earlier : List Value}
    (h : Grounded vendor (nearer ++ entry :: earlier)) {answers content : Value}
    (hresult : Part.result answers content ∈ vendor.readParts entry) :
    RefersTo vendor earlier answers := by
  induction nearer with
  | nil =>
    cases h with
    | entry results before => exact results answers content hresult
  | cons first rest ih =>
    cases h with
    | entry results before => exact ih before

/-- Whatever entry of them is looked at, its results refer to entries before it. -/
theorem Grounded.refersTo {vendor : Vendor} {entries : List Value}
    (h : Grounded vendor entries.reverse) {earlier later : List Value} {entry : Value}
    (hsplit : entries = earlier ++ entry :: later) {answers content : Value}
    (hresult : Part.result answers content ∈ vendor.readParts entry) :
    RefersTo vendor earlier answers := by
  have hreverse : entries.reverse = later.reverse ++ entry :: earlier.reverse := by simp [hsplit]
  rw [hreverse] at h
  obtain ⟨id, hid, hblank, made, hmade, hcall⟩ := h.of_suffix hresult
  exact ⟨id, hid, hblank, made, List.mem_reverse.1 hmade, hcall⟩

/-- What holds of the entries so far: they are grounded, and every id that is known is that of a
call made in them. -/
structure Grounds (vendor : Vendor) (known : List String) (before : List Value) : Prop where
  grounded : Grounded vendor before
  known : ∀ id ∈ known, ∃ entry ∈ before, MakesCallOf id (vendor.readParts entry)

/-- What an entry adds: its results answer ids that are known, and the ids known after it are those
from before and those of its calls. -/
structure AddsTo (vendor : Vendor) (known next : List String) (entry : Value) : Prop where
  results : ∀ answers content, Part.result answers content ∈ vendor.readParts entry →
    ∃ id : String, answers = .str id ∧ Text.strip id.toList ≠ [] ∧ id ∈ known
  calls : ∀ id ∈ next, id ∈ known ∨ MakesCallOf id (vendor.readParts entry)

/-- An id that is known refers to a call before. -/
theorem Grounds.refersTo {vendor : Vendor} {known : List String} {before : List Value}
    (h : Grounds vendor known before) {answers : Value}
    (hid : ∃ id : String, answers = .str id ∧ Text.strip id.toList ≠ [] ∧ id ∈ known) :
    RefersTo vendor before answers := by
  obtain ⟨id, rfl, hblank, hknown⟩ := hid
  exact ⟨id, rfl, hblank, h.known id hknown⟩

/-- An entry adds to what is known the ids of its calls. -/
theorem Grounds.add {vendor : Vendor} {known next : List String} {before : List Value}
    {entry : Value} (h : Grounds vendor known before) (hentry : AddsTo vendor known next entry) :
    Grounds vendor next (entry :: before) where
  grounded := .entry (fun answers content hresult =>
    h.refersTo (hentry.results answers content hresult)) h.grounded
  known := by
    intro id hid
    rcases hentry.calls id hid with hknown | hmade
    · obtain ⟨made, hmade, hcall⟩ := h.known id hknown
      exact ⟨made, List.mem_cons_of_mem entry hmade, hcall⟩
    · exact ⟨entry, List.mem_cons_self, hmade⟩

/-! ## What a message adds -/

section Adds

variable {vendor : Vendor} {m : Message} {entry : Value} {position : Nat} {known next : List String}

end Adds

/-! ## Whole conversations -/

namespace OpenAI

variable {label : Value}

end OpenAI

namespace Anthropic

end Anthropic

end Parley
