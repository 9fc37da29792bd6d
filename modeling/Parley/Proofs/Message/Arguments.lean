import Parley.Proofs.Json.RoundTrip
import Parley.Proofs.Message.Typed

/-!
# Argument texts

Which object the arguments of a call decode to, and how it survives being written anew.

* `Spells`: a text is one of an argument object;
* `decodeArguments_eq_ok_iff`: those are the texts that decode, whatever call they belong to;
* `spells_of_write`: an object that is a tree is spelled by its text;
* `Json.isOverlong`: a text that nothing is read from because of an integer with too many digits.
-/

namespace Parley

/-- Reading a text stops at an integer with too many digits. -/
def Json.isOverlong (text : String) : Bool :=
  match Json.read text with
  | .error e => e.isTooLong
  | .ok _ => false

/-- A text that is read is not overlong. -/
theorem Json.isOverlong_of_read {text : String} {v : Value} (h : Json.read text = .ok v) :
    isOverlong text = false := by
  rw [isOverlong, h]

/-- The digits of the least number that is too long are an overlong text. -/
theorem Json.isOverlong_digits :
    isOverlong (String.ofList (Number.digits firstLong)) = true := by
  rcases read_digits isShort_firstLong with ⟨e, hread, hlong⟩
  rw [isOverlong, hread]
  exact hlong

/-- A text is one of an argument object: the object's own text, or blank for the empty object. -/
def Spells (text : String) (fields : Fields) : Prop :=
  (Text.strip text.toList = [] ∧ fields = []) ∨
    (Text.strip text.toList ≠ [] ∧ Json.read text = .ok (.dict fields))

/-- Arguments are decoded exactly if they spell an object, and then they are that object. -/
theorem decodeArguments_eq_ok_iff {label : Value} {text : String} {fields : Fields} :
    decodeArguments label text = .ok fields ↔ Spells text fields := by
  unfold decodeArguments Spells
  by_cases hblank : Text.strip text.toList = []
  · simp [hblank, eq_comm]
  · simp only [hblank, if_false, false_and, false_or, not_false_eq_true, true_and, ne_eq]
    cases hread : Json.read text with
    | error e => cases h : e.isTooLong <;> simp [h, invalid, misuse]
    | ok v => cases v <;> simp [invalid]

/-- The arguments of a call are found exactly if its text spells them. -/
theorem TextCall.argumentFields_eq_ok_iff {call : TextCall} {fields : Fields} :
    call.toCall.argumentFields = .ok fields ↔ Spells call.arguments fields :=
  decodeArguments_eq_ok_iff

namespace TextCall

/-- The argument object of a call, empty if its text is not one. -/
def fields (call : TextCall) : Fields :=
  call.toCall.argumentFields.toOption.getD []

def WellSpelled (call : TextCall) : Prop :=
  Spells call.arguments call.fields

/-- The fields of a call are those that its text spells. -/
theorem fields_eq_of_spells {call : TextCall} {fields : Fields}
    (h : Spells call.arguments fields) : call.fields = fields := by
  rw [TextCall.fields, argumentFields_eq_ok_iff.2 h]
  rfl

/-- A well-spelled call has arguments. -/
theorem WellSpelled.argumentFields {call : TextCall} (h : call.WellSpelled) :
    call.toCall.argumentFields = .ok call.fields :=
  argumentFields_eq_ok_iff.2 h

theorem wellSpelled_of_spells {call : TextCall} {fields : Fields}
    (h : Spells call.arguments fields) : call.WellSpelled := by
  rw [WellSpelled, fields_eq_of_spells h]
  exact h

end TextCall

/-- The empty object is spelled by no text and by its own. -/
theorem spells_orElse_braces {text : String} {fields : Fields} (h : Spells text fields) :
    Spells (if text = "" then "{}" else text) fields := by
  by_cases htext : text = ""
  · subst htext
    rcases h with ⟨-, rfl⟩ | ⟨hblank, -⟩
    · exact .inr ⟨by decide, rfl⟩
    · exact absurd rfl hblank
  · simpa [htext] using h

/-- What a text spells is a tree. -/
theorem Spells.tree {text : String} {fields : Fields} (h : Spells text fields) :
    Json.Tree (.dict fields) := by
  rcases h with ⟨-, rfl⟩ | ⟨-, hread⟩
  · exact Json.tree_dict.2 ⟨.nil, by simp⟩
  · exact Json.tree_of_read hread

/-- An object that is a tree is spelled by its text. -/
theorem spells_of_write {text : String} {fields : Fields} (hfields : Json.Tree (.dict fields))
    (h : Json.write (.dict fields) = .ok text) : Spells text fields := by
  refine .inr ⟨?_, Json.read_of_write_tree hfields h⟩
  obtain ⟨-, rfl⟩ := Json.write_eq_ok_iff.1 h
  intro hblank
  have hall : Text.allBlank ('{' :: Json.compactFields fields) = true := by
    simpa [Json.compact] using Text.strip_eq_nil_iff.1 hblank
  have hbrace : Text.isBlank '{' = true := by
    simp only [Text.allBlank, List.all_cons, Bool.and_eq_true] at hall
    exact hall.1
  exact absurd hbrace (by decide)

/-- Every object that can be said has a text. -/
theorem exists_text_of_tree {fields : Fields} (h : Json.Tree (.dict fields)) :
    ∃ text, Json.write (.dict fields) = .ok text ∧ Spells text fields := by
  have hwrite := Json.write_of_writable h.writable
  exact ⟨_, hwrite, spells_of_write h hwrite⟩

end Parley
