import Parley.Proofs.Message.Spelling
import Parley.Proofs.Value.Changes

/-!
# Nulls in calls and messages

Whether a field that is null says the same as a field that is not there. For most fields of a call
or a message it does. There are two exceptions: where a part has two spellings, a null under the
first keeps the second from being looked at, and null arguments are written as the text of null.

* `Fields.withoutNulls`, `ToolCall.withoutNulls`, `Message.withoutNulls`: what is left once the
  nulls are taken out;
* `Message.asRead`: the exceptions undone, by writing out what is read;
* `Message.matches_withoutNulls`: a message reads as what is left of it once the exceptions are
  undone, and simply as what is left of it if it has none of them.
-/

namespace Parley

/-! ## Outcomes up to the call that a fault shows -/

namespace Outcome

variable {α β : Type}

/-- The same outcome, or twice the fault of a call without a name, which shows the call as it was
given. What can be shown of the first call can be shown of the second. -/
inductive Matches : Outcome α → Outcome α → Prop where
  | same (x : Outcome α) : Matches x x
  | nameless {x y : Outcome α} {call other : Value} (first : x = invalid (.callWithoutName call))
    (second : y = invalid (.callWithoutName other))
    (shown : call.printable = true → other.printable = true) : Matches x y

theorem Matches.trans {x y z : Outcome α} (hxy : Matches x y) (hyz : Matches y z) :
    Matches x z := by
  cases hxy with
  | same => exact hyz
  | @nameless _ call other hx hy hshown =>
    cases hyz with
    | same => exact .nameless hx hy hshown
    | @nameless _ middle last hy' hz hshown' =>
      refine .nameless hx hz fun hcall => hshown' ?_
      -- the fault in between shows a call, so it is one that can be shown
      by_contra hmiddle
      have hother : (MessageFault.callWithoutName other).fault = .invalidMessage _ :=
        if_pos (hshown hcall)
      have hmisuse : (MessageFault.callWithoutName middle).fault = .misuse .content :=
        if_neg hmiddle
      have hsame := Except.error.inj (hy.symm.trans hy')
      rw [hother, hmisuse] at hsame
      cases hsame

/-- Outcomes that match have the same value, or neither has one. -/
theorem Matches.toOption_eq {x y : Outcome α} (h : Matches x y) : x.toOption = y.toOption := by
  cases h with
  | same => rfl
  | nameless hx hy =>
    subst hx hy
    rfl

/-- Steps that match go on to match if what follows them does. -/
theorem Matches.bind {x y : Outcome α} (h : Matches x y) {f g : α → Outcome β}
    (hfg : ∀ a, Matches (f a) (g a)) : Matches (x >>= f) (y >>= g) := by
  cases h with
  | same =>
    cases x with
    | ok a => exact hfg a
    | error fault => exact .same _
  | nameless hx hy hshown =>
    subst hx hy
    exact .nameless rfl rfl hshown

/-- Reading a changed list matches reading the list if that holds of every member. -/
theorem Matches.mapM {f : α → Outcome β} {g : α → α} {xs : List α}
    (h : ∀ x ∈ xs, Matches (f x) (f (g x))) : Matches (xs.mapM f) ((xs.map g).mapM f) := by
  induction xs with
  | nil => exact .same _
  | cons x rest ih =>
    rw [List.map_cons, List.mapM_cons, List.mapM_cons]
    refine (h x List.mem_cons_self).bind fun y => ?_
    exact (ih fun other hother => h other (List.mem_cons_of_mem x hother)).bind fun ys => .same _

end Outcome

/-! ## Calls -/

namespace ToolCall

open Outcome (Matches)

/-- The keys that are looked at in what is nested in a call. -/
def nestedKeys : List String := ["name", "arguments"]

def knownKeys : List String := "id" :: spelledKeys

/-- The call without those of its known fields, nested ones included, that are null. -/
def withoutNulls (fields : Fields) : Fields :=
  (fields.changeAt "function" (Value.mapDict (Fields.withoutNulls nestedKeys))).withoutNulls
    knownKeys

/-- Arguments that are null as the text that they are written as. -/
def spellNull (arguments : Value) : Value :=
  arguments.ifNull (.str "null")

/-- The call as it is read: arguments under a null are not there, and those that are null are the
text of it. -/
def asRead (fields : Fields) : Fields :=
  ((fields.hideBehind "arguments_json" "argumentsJSON").changeAt "arguments" spellNull).changeAt
    "function" (Value.mapDict (Fields.changeAt "arguments" spellNull))

/-- The arguments of a call are null: they are looked for under `arguments`, because nothing stands
under the keys that go first, and null stands there. -/
def NullArguments (fields : Fields) : Prop :=
  fields.either "arguments_json" "argumentsJSON" = .null ∧
    (fields.lookup "arguments" = some .null ∨ fields.lookup "arguments" = none ∧
      ∃ function, nested fields = .dict function ∧ function.lookup "arguments" = some .null)

/-- A call has no arguments: nothing stands under the keys that go first, and `arguments` is there
neither beside the name nor nested. -/
def NoArguments (fields : Fields) : Prop :=
  fields.either "arguments_json" "argumentsJSON" = .null ∧ fields.lookup "arguments" = none ∧
    ∀ function, nested fields = .dict function → function.lookup "arguments" = none

/-- The nulls of a call neither hide anything nor are they its arguments. -/
structure Clear (fields : Fields) : Prop where
  unhidden : fields.Unhidden "arguments_json" "argumentsJSON"
  arguments : ¬ NullArguments fields

variable {fields : Fields}

/-- Two calls in which the same is looked up read alike. -/
theorem matches_ofValue {other : Fields}
    (hshown : (Value.dict fields).printable = true → (Value.dict other).printable = true)
    (hid : other.value "id" = fields.value "id")
    (hname : plainName (.dict other) (nested other) = plainName (.dict fields) (nested fields))
    (harguments : plainArguments (.dict other) (nested other) >>= argumentText =
      plainArguments (.dict fields) (nested fields) >>= argumentText) :
    Matches (ofValue (.dict fields)) (ofValue (.dict other)) := by
  rw [ofValue_dict_eq, ofValue_dict_eq, hid, hname, harguments]
  refine (Matches.same _).bind fun name => ?_
  split
  · exact .same _
  · exact .nameless rfl rfl hshown

/-- The name of a call depends on three of its keys, and on the nested one. -/
theorem plainName_congr {other : Fields} {function changed : Value}
    (hvalues : ∀ key ∈ ["function_name", "functionName", "name"],
      other.value key = fields.value key)
    (hget : changed.get "name" = function.get "name") :
    plainName (.dict other) changed = plainName (.dict fields) function := by
  rw [plainName_dict, plainName_dict, hget, hvalues "function_name" (by simp),
    hvalues "functionName" (by simp), hvalues "name" (by simp)]

/-! ### Reading the exceptions out -/

/-- A null is spelled like no arguments at all. -/
theorem argumentText_spellNull (v : Value) : argumentText (spellNull v) = argumentText v := by
  cases v <;> rfl

theorem value_asRead_of_ne {key : String}
    (hkey : key ∉ ["function", "arguments", "argumentsJSON"]) :
    (asRead fields).value key = fields.value key := by
  simp only [List.mem_cons, List.not_mem_nil, or_false, not_or] at hkey
  rw [asRead, Fields.value_changeAt_of_ne hkey.1, Fields.value_changeAt_of_ne hkey.2.1,
    Fields.value_hideBehind_of_ne hkey.2.2]

theorem nested_asRead :
    nested (asRead fields) =
      (nested fields).mapDict (Fields.changeAt "arguments" spellNull) := by
  rw [nested, asRead, Fields.value_changeAt_self rfl,
    Fields.value_changeAt_of_ne (by decide), Fields.value_hideBehind_of_ne (by decide),
    Value.orElse_mapDict rfl, nested]

theorem either_asRead :
    (asRead fields).either "arguments_json" "argumentsJSON" =
      fields.either "arguments_json" "argumentsJSON" := by
  rw [asRead, ← Fields.either_hideBehind fields (by decide)]
  refine Fields.either_congr ?_ ?_
  · rw [Fields.lookup_changeAt_of_ne (by decide), Fields.lookup_changeAt_of_ne (by decide)]
  · rw [Fields.value_changeAt_of_ne (by decide), Fields.value_changeAt_of_ne (by decide)]

theorem lookup_arguments_asRead :
    (asRead fields).lookup "arguments" = (fields.lookup "arguments").map spellNull := by
  rw [asRead, Fields.lookup_changeAt_of_ne (by decide), Fields.lookup_changeAt_self,
    Fields.lookup_hideBehind_of_ne (by decide)]

/-- The text of the arguments is the same after a call is put in the form in which it is read. -/
theorem arguments_asRead :
    plainArguments (.dict (asRead fields)) (nested (asRead fields)) >>= argumentText =
      plainArguments (.dict fields) (nested fields) >>= argumentText := by
  rw [plainArguments_eq, plainArguments_eq, either_asRead]
  split
  -- nothing stands under the keys that go first, so `arguments` is looked at
  next =>
    rw [nested_asRead, lookup_arguments_asRead,
      Value.get?_mapDict (fun function => Fields.lookup_changeAt_self)]
    cases (nested fields).get? "arguments" with
    | error fault => rfl
    | ok found =>
      -- beside the name or nested, or else the default, which is no null
      have hfound : argumentText ((fields.lookup "arguments" |>.map spellNull).getD
          ((found.map spellNull).getD (.str ""))) =
          argumentText ((fields.lookup "arguments").getD (found.getD (.str ""))) := by
        cases fields.lookup "arguments" with
        | some v => exact argumentText_spellNull v
        | none =>
          cases found with
          | some v => exact argumentText_spellNull v
          | none => rfl
      exact hfound
  next => rfl

/-- A call that can be shown still can be with the exceptions undone. -/
theorem printable_asRead (h : (Value.dict fields).printable = true) :
    (Value.dict (asRead fields)).printable = true := by
  have hspelled : ∀ v : Value, v.printable = true → (spellNull v).printable = true := by
    intro v hv
    cases v <;> exact hv
  refine Value.printable_dict_changeAt
    (Value.printable_mapDict fun inner => Value.printable_dict_changeAt hspelled) ?_
  exact Value.printable_dict_changeAt hspelled (Value.printable_dict_filter _ h)

/-- Undoing the exceptions does not change what a call reads as. -/
theorem matches_asRead : Matches (ofValue (.dict fields)) (ofValue (.dict (asRead fields))) := by
  refine matches_ofValue printable_asRead (value_asRead_of_ne (by decide)) ?_ arguments_asRead
  refine plainName_congr (fun key hkey => value_asRead_of_ne ?_) ?_
  · revert key
    decide
  · rw [nested_asRead]
    exact Value.get_mapDict (fun function => Fields.value_changeAt_of_ne (by decide)) _

theorem clear_asRead : Clear (asRead fields) where
  unhidden := by
    refine (Fields.unhidden_hideBehind fields (by decide)).congr ?_ ?_
    · rw [asRead, Fields.lookup_changeAt_of_ne (by decide),
        Fields.lookup_changeAt_of_ne (by decide)]
    · rw [asRead, Fields.value_changeAt_of_ne (by decide), Fields.value_changeAt_of_ne (by decide)]
  arguments := by
    -- what stands under `arguments` now is no null, for null became a text
    have hspelled : ∀ o : Option Value, o.map spellNull ≠ some .null := by
      rintro (_ | v) h
      · cases h
      · cases v <;> cases h
    rintro ⟨-, hown | ⟨-, function, hfunction, hinner⟩⟩
    · rw [lookup_arguments_asRead] at hown
      exact hspelled _ hown
    · rw [nested_asRead] at hfunction
      cases hnested : nested fields with
      | dict entries =>
        rw [hnested] at hfunction
        cases hfunction
        rw [Fields.lookup_changeAt_self] at hinner
        exact hspelled _ hinner
      | _ =>
        rw [hnested] at hfunction
        cases hfunction

/-! ### Taking the nulls out -/

theorem value_withoutNulls_of_ne {key : String} (hkey : key ≠ "function") :
    (withoutNulls fields).value key = fields.value key := by
  rw [withoutNulls, Fields.value_withoutNulls, Fields.value_changeAt_of_ne hkey]

theorem nested_withoutNulls :
    nested (withoutNulls fields) =
      (nested fields).mapDict (Fields.withoutNulls nestedKeys) := by
  rw [nested, withoutNulls, Fields.value_withoutNulls, Fields.value_changeAt_self rfl,
    Value.orElse_mapDict rfl, nested]

theorem either_withoutNulls (h : fields.Unhidden "arguments_json" "argumentsJSON") :
    (withoutNulls fields).either "arguments_json" "argumentsJSON" =
      fields.either "arguments_json" "argumentsJSON" := by
  have hkept : (fields.changeAt "function" (Value.mapDict (Fields.withoutNulls nestedKeys))).lookup
      "arguments_json" = fields.lookup "arguments_json" :=
    Fields.lookup_changeAt_of_ne (by decide)
  have hbehind : (fields.changeAt "function" (Value.mapDict (Fields.withoutNulls nestedKeys))).value
      "argumentsJSON" = fields.value "argumentsJSON" :=
    Fields.value_changeAt_of_ne (by decide)
  rw [withoutNulls, Fields.either_withoutNulls (h.congr hkept hbehind),
    Fields.either_congr hkept hbehind]

/-- Arguments that are null are gone, and others are kept. -/
theorem lookup_arguments_withoutNulls :
    (withoutNulls fields).lookup "arguments" = fields.lookup "arguments" ∨
      (withoutNulls fields).lookup "arguments" = none ∧
        fields.lookup "arguments" = some .null := by
  have hlookup := Fields.lookup_withoutNulls knownKeys
    (fields.changeAt "function" (Value.mapDict (Fields.withoutNulls nestedKeys))) "arguments"
  rwa [Fields.lookup_changeAt_of_ne (by decide)] at hlookup

/-- Of a clear call without its nulls the same arguments are found. -/
theorem arguments_withoutNulls (h : Clear fields) :
    plainArguments (.dict (withoutNulls fields)) (nested (withoutNulls fields)) =
      plainArguments (.dict fields) (nested fields) := by
  rw [plainArguments_eq, plainArguments_eq, either_withoutNulls h.unhidden]
  split
  next hgiven =>
    rw [Value.isNull_iff] at hgiven
    have hown : (withoutNulls fields).lookup "arguments" = fields.lookup "arguments" := by
      refine lookup_arguments_withoutNulls.resolve_right ?_
      rintro ⟨-, hnull⟩
      exact h.arguments ⟨hgiven, .inl hnull⟩
    rw [hown, nested_withoutNulls]
    cases hnested : nested fields with
    -- a null that is taken out of what is nested was not looked at, or the arguments were null
    | dict function =>
      simp only [Value.mapDict, Value.get?]
      rcases Fields.lookup_withoutNulls nestedKeys function "arguments" with hsame | ⟨-, hnull⟩
      · rw [hsame]
      · cases hlookup : fields.lookup "arguments" with
        | some v => rfl
        | none => exact absurd ⟨hgiven, .inr ⟨hlookup, function, hnested, hnull⟩⟩ h.arguments
    | _ => rfl
  next => rfl

/-- A call that can be shown still can be without its nulls. -/
theorem printable_withoutNulls (h : (Value.dict fields).printable = true) :
    (Value.dict (withoutNulls fields)).printable = true :=
  Value.printable_dict_filter _ <| Value.printable_dict_changeAt
    (Value.printable_mapDict fun _ => Value.printable_dict_filter _) h

/-- A call whose nulls are clear reads as what is left of it without them. -/
theorem matches_of_clear (h : Clear fields) :
    Matches (ofValue (.dict fields)) (ofValue (.dict (withoutNulls fields))) := by
  refine matches_ofValue printable_withoutNulls (value_withoutNulls_of_ne (by decide)) ?_ ?_
  · refine plainName_congr (fun key hkey => value_withoutNulls_of_ne ?_) ?_
    · revert key
      decide
    · rw [nested_withoutNulls]
      exact Value.get_mapDict (fun function => Fields.value_withoutNulls) _
  · rw [arguments_withoutNulls h]

/-! ### Null arguments and none -/

/-- Null arguments become a text that is not one of an object. -/
theorem refused_of_nullArguments {made : ToolCall} (hread : ofValue (.dict fields) = .ok made)
    (hnull : NullArguments fields) :
    made.arguments = .str "null" ∧
      made.argumentFields = invalid (.argumentsNotObject (made.id.orElse made.name)) := by
  obtain ⟨arguments, text, harguments, htext, hmade⟩ := arguments_of_ofValue hread
  obtain ⟨found, hfound, rfl⟩ := arguments_of_either_null hnull.1 harguments
  have hnone : (fields.lookup "arguments").getD (found.getD (.str "")) = .null := by
    rcases hnull.2 with hown | ⟨hown, function, hfunction, hinner⟩
    · rw [hown]
      rfl
    · rw [hfunction] at hfound
      cases hfound
      rw [hown, hinner]
      rfl
  rw [hnone] at htext
  cases htext
  refine ⟨hmade, ?_⟩
  rw [argumentFields, hmade]
  rfl

/-- A call without arguments has the empty object for its arguments. -/
theorem argumentFields_of_noArguments {made : ToolCall}
    (hread : ofValue (.dict fields) = .ok made) (hnone : NoArguments fields) :
    made.argumentFields = .ok [] := by
  obtain ⟨arguments, text, harguments, htext, hmade⟩ := arguments_of_ofValue hread
  obtain ⟨found, hfound, rfl⟩ := arguments_of_either_null hnone.1 harguments
  obtain ⟨function, hfunction, rfl⟩ := Value.exists_of_get?_eq_ok hfound
  rw [hnone.2.1, hnone.2.2 function hfunction] at htext
  cases htext
  rw [argumentFields, hmade]
  rfl

end ToolCall

/-! ## Messages -/

namespace Message

open Outcome (Matches)

def knownKeys : List String :=
  ["role", "content", "tool_calls", "toolCalls", "tool_call_id", "toolCallId", "name", "metadata"]

/-- The message with its calls changed, under either spelling. -/
def changeCalls (g : Fields → Fields) (fields : Fields) : Fields :=
  (fields.changeAt "tool_calls" (Value.mapItems (Value.mapDict g))).changeAt "toolCalls"
    (Value.mapItems (Value.mapDict g))

/-- The message without those of its known fields, and of those of its calls, that are null. -/
def withoutNulls (fields : Fields) : Fields :=
  (changeCalls ToolCall.withoutNulls fields).withoutNulls knownKeys

/-- The message as it is read: what a null hides is not there, and the calls are as they are
read. -/
def asRead (fields : Fields) : Fields :=
  changeCalls ToolCall.asRead
    ((fields.hideBehind "tool_calls" "toolCalls").hideBehind "tool_call_id" "toolCallId")

/-- The nulls of a message and of the calls that are read hide nothing and are no arguments. -/
structure Clear (fields : Fields) : Prop where
  calls_unhidden : fields.Unhidden "tool_calls" "toolCalls"
  id_unhidden : fields.Unhidden "tool_call_id" "toolCallId"
  calls : ∀ raws, fields.either "tool_calls" "toolCalls" = .list raws →
    ∀ call, Value.dict call ∈ raws → ToolCall.Clear call

variable {fields : Fields} {g : Fields → Fields} {key : String}

/-- Reading the calls of a message, with the dictionaries among them changed, is reading them. -/
theorem matches_calls {given : Value}
    (heach : ∀ raws, given = .list raws → ∀ call, Value.dict call ∈ raws →
      Matches (ToolCall.ofValue (.dict call)) (ToolCall.ofValue (.dict (g call)))) :
    Matches ((given.orElse (.list [])).items >>= List.mapM ToolCall.ofValue)
      (((given.mapItems (Value.mapDict g)).orElse (.list [])).items >>=
        List.mapM ToolCall.ofValue) := by
  cases given with
  | list raws =>
    rw [Value.mapItems, Outcome.bind_of_ok (Value.items_orElse_list _),
      Outcome.bind_of_ok (Value.items_orElse_list _)]
    refine Matches.mapM fun raw hraw => ?_
    cases raw with
    | dict call => exact heach raws rfl call hraw
    | _ => exact .same _
  | _ => exact .same _

/-- Two messages in which the same is looked up, but for changes to the calls, read alike. -/
theorem matches_ofValue {other : Fields}
    (heach : ∀ raws, fields.either "tool_calls" "toolCalls" = .list raws →
      ∀ call, Value.dict call ∈ raws →
        Matches (ToolCall.ofValue (.dict call)) (ToolCall.ofValue (.dict (g call))))
    (hcalls : other.either "tool_calls" "toolCalls" =
      (fields.either "tool_calls" "toolCalls").mapItems (Value.mapDict g))
    (hid : other.either "tool_call_id" "toolCallId" = fields.either "tool_call_id" "toolCallId")
    (hvalues : ∀ key ∈ ["role", "content", "name", "metadata"],
      other.value key = fields.value key) :
    Matches (ofValue (.dict fields)) (ofValue (.dict other)) := by
  rw [ofValue_dict_eq, ofValue_dict_eq, hcalls, hid, hvalues "role" (by simp),
    hvalues "content" (by simp), hvalues "name" (by simp), hvalues "metadata" (by simp)]
  exact (matches_calls heach).bind fun calls => .same _

theorem lookup_changeCalls_of_ne (hkey : key ∉ ["tool_calls", "toolCalls"]) :
    (changeCalls g fields).lookup key = fields.lookup key := by
  simp only [List.mem_cons, List.not_mem_nil, or_false, not_or] at hkey
  rw [changeCalls, Fields.lookup_changeAt_of_ne hkey.2, Fields.lookup_changeAt_of_ne hkey.1]

theorem value_changeCalls_of_ne (hkey : key ∉ ["tool_calls", "toolCalls"]) :
    (changeCalls g fields).value key = fields.value key :=
  Fields.value_congr (lookup_changeCalls_of_ne hkey)

theorem lookup_first_changeCalls :
    (changeCalls g fields).lookup "tool_calls" =
      (fields.lookup "tool_calls").map (Value.mapItems (Value.mapDict g)) := by
  rw [changeCalls, Fields.lookup_changeAt_of_ne (by decide), Fields.lookup_changeAt_self]

theorem value_second_changeCalls :
    (changeCalls g fields).value "toolCalls" =
      (fields.value "toolCalls").mapItems (Value.mapDict g) := by
  rw [changeCalls, Fields.value_changeAt_self rfl, Fields.value_changeAt_of_ne (by decide)]

/-- Changing the calls of a message changes the calls that are found. -/
theorem either_calls_changeCalls :
    (changeCalls g fields).either "tool_calls" "toolCalls" =
      (fields.either "tool_calls" "toolCalls").mapItems (Value.mapDict g) := by
  rw [Fields.either, lookup_first_changeCalls, value_second_changeCalls, Fields.either]
  cases fields.lookup "tool_calls" <;> rfl

/-- It does not change the id that is found. -/
theorem either_id_changeCalls :
    (changeCalls g fields).either "tool_call_id" "toolCallId" =
      fields.either "tool_call_id" "toolCallId" :=
  Fields.either_congr (lookup_changeCalls_of_ne (by decide)) (value_changeCalls_of_ne (by decide))

theorem unhidden_calls_changeCalls (h : fields.Unhidden "tool_calls" "toolCalls") :
    (changeCalls g fields).Unhidden "tool_calls" "toolCalls" := by
  intro hnull
  rw [lookup_first_changeCalls, Option.map_eq_some_iff] at hnull
  obtain ⟨v, hv, hmapped⟩ := hnull
  have hnone : v = .null := by
    cases v <;> cases hmapped
    rfl
  rw [value_second_changeCalls, h (hnone ▸ hv)]
  rfl

theorem unhidden_id_changeCalls (h : fields.Unhidden "tool_call_id" "toolCallId") :
    (changeCalls g fields).Unhidden "tool_call_id" "toolCallId" :=
  h.congr (lookup_changeCalls_of_ne (by decide)) (value_changeCalls_of_ne (by decide))

/-! ### Reading the exceptions out -/

/-- The calls of a message in the form in which it is read are its calls in that form. -/
theorem either_calls_asRead :
    (asRead fields).either "tool_calls" "toolCalls" =
      (fields.either "tool_calls" "toolCalls").mapItems (Value.mapDict ToolCall.asRead) := by
  rw [asRead, either_calls_changeCalls, ← Fields.either_hideBehind fields (by decide)]
  refine congrArg _ (Fields.either_congr ?_ ?_)
  · exact Fields.lookup_hideBehind_of_ne (by decide)
  · exact Fields.value_hideBehind_of_ne (by decide)

theorem either_id_asRead :
    (asRead fields).either "tool_call_id" "toolCallId" =
      fields.either "tool_call_id" "toolCallId" := by
  rw [asRead, either_id_changeCalls, Fields.either_hideBehind _ (by decide)]
  refine Fields.either_congr ?_ ?_
  · exact Fields.lookup_hideBehind_of_ne (by decide)
  · exact Fields.value_hideBehind_of_ne (by decide)

/-- Undoing the exceptions does not change what a message reads as. -/
theorem matches_asRead : Matches (ofValue (.dict fields)) (ofValue (.dict (asRead fields))) := by
  refine matches_ofValue (fun raws _ call _ => ToolCall.matches_asRead) either_calls_asRead
    either_id_asRead ?_
  intro key hkey
  have hother : key ∉ ["tool_calls", "toolCalls", "toolCallId"] := by
    revert key
    decide
  simp only [List.mem_cons, List.not_mem_nil, or_false, not_or] at hother
  rw [asRead, value_changeCalls_of_ne (by simp [hother]),
    Fields.value_hideBehind_of_ne hother.2.2, Fields.value_hideBehind_of_ne hother.2.1]

theorem clear_asRead : Clear (asRead fields) where
  calls_unhidden := by
    refine unhidden_calls_changeCalls ((Fields.unhidden_hideBehind fields (by decide)).congr ?_ ?_)
    · exact Fields.lookup_hideBehind_of_ne (by decide)
    · exact Fields.value_hideBehind_of_ne (by decide)
  id_unhidden := unhidden_id_changeCalls (Fields.unhidden_hideBehind _ (by decide))
  calls := by
    intro raws hraws call hcall
    rw [either_calls_asRead] at hraws
    cases hgiven : fields.either "tool_calls" "toolCalls" with
    | list items =>
      rw [hgiven] at hraws
      cases hraws
      obtain ⟨raw, -, hraw⟩ := List.mem_map.1 hcall
      cases raw with
      | dict inner =>
        cases hraw
        exact ToolCall.clear_asRead
      | _ => cases hraw
    | _ =>
      rw [hgiven] at hraws
      cases hraws

/-! ### Taking the nulls out -/

/-- A message whose nulls are clear reads as what is left of it without them. -/
theorem matches_of_clear (h : Clear fields) :
    Matches (ofValue (.dict fields)) (ofValue (.dict (withoutNulls fields))) := by
  refine matches_ofValue
    (fun raws hraws call hcall => ToolCall.matches_of_clear (h.calls raws hraws call hcall))
    ?_ ?_ ?_
  · rw [withoutNulls, Fields.either_withoutNulls (unhidden_calls_changeCalls h.calls_unhidden),
      either_calls_changeCalls]
  · rw [withoutNulls, Fields.either_withoutNulls (unhidden_id_changeCalls h.id_unhidden),
      either_id_changeCalls]
  · intro key hkey
    rw [withoutNulls, Fields.value_withoutNulls]
    refine value_changeCalls_of_ne ?_
    revert key
    decide

/-- A message reads as what is left of it without nulls once what they hide is taken out and null
arguments are spelled out; where they neither hide anything nor are arguments, it reads as what is
left of it as it stands. Null arguments are turned down, where a call without arguments has the
empty object for them. -/
theorem matches_withoutNulls (fields : Fields) :
    Matches (ofValue (.dict fields)) (ofValue (.dict (withoutNulls (asRead fields)))) ∧
      (Clear fields →
        Matches (ofValue (.dict fields)) (ofValue (.dict (withoutNulls fields)))) ∧
      ∀ call made, ToolCall.ofValue (.dict call) = .ok made →
        (ToolCall.NullArguments call → made.arguments = .str "null" ∧
          made.argumentFields = invalid (.argumentsNotObject (made.id.orElse made.name))) ∧
        (ToolCall.NoArguments call → made.argumentFields = .ok []) := by
  refine ⟨?_, matches_of_clear, ?_⟩
  · exact matches_asRead.trans (matches_of_clear clear_asRead)
  · intro call made hread
    exact ⟨ToolCall.refused_of_nullArguments hread, ToolCall.argumentFields_of_noArguments hread⟩

/-- A call of the clock with the given arguments, and null under a key that goes first. -/
def clockCall (arguments : Value) : Fields :=
  [("id", .str "c1"), ("function", .dict [("name", .str "clock"), ("arguments", arguments)]),
    ("arguments_json", .null)]

/-- A message that calls the clock with the given arguments, and has null where it says nothing. -/
def askForTime (arguments : Value) : Fields :=
  [("role", .str "assistant"), ("content", .null),
    ("tool_calls", .list [.dict (clockCall arguments)]), ("toolCalls", .null), ("metadata", .null)]

theorem clear_askForTime : Clear (askForTime (.str "{}")) where
  calls_unhidden := fun _ => rfl
  id_unhidden := fun _ => rfl
  calls := by
    rintro raws ⟨⟩ call hcall
    cases List.mem_singleton.1 hcall
    refine ⟨fun _ => rfl, ?_⟩
    rintro ⟨-, hown | ⟨-, function, ⟨⟩, ⟨⟩⟩⟩
    simp [clockCall, List.lookup_cons] at hown

/-- A null metadata and a null name go without a trace. -/
theorem matches_withoutNulls_clock :
    withoutNulls (askForTime (.str "{}")) =
        [("role", .str "assistant"), ("tool_calls", .list [.dict [("id", .str "c1"),
          ("function", .dict [("name", .str "clock"), ("arguments", .str "{}")])]])] ∧
      Matches (ofValue (.dict (askForTime (.str "{}"))))
        (ofValue (.dict (withoutNulls (askForTime (.str "{}"))))) ∧
      (∃ made, ToolCall.ofValue (.dict (clockCall .null)) = .ok made ∧
        made.arguments = .str "null") ∧
      ∃ made, ToolCall.ofValue (.dict [("name", .str "clock")]) = .ok made ∧
        made.argumentFields = .ok [] := by
  obtain ⟨-, hclear, hcalls⟩ := matches_withoutNulls (askForTime (.str "{}"))
  refine ⟨rfl, hclear clear_askForTime, ?_, ?_⟩
  · exact ⟨_, rfl, ((hcalls (clockCall .null) _ rfl).1 ⟨rfl, .inr ⟨rfl, _, rfl, rfl⟩⟩).1⟩
  · refine ⟨_, rfl, (hcalls [("name", .str "clock")] _ rfl).2 ⟨rfl, rfl, ?_⟩⟩
    rintro function ⟨⟩
    rfl

/-- A message that has null before the calls under the other spelling. -/
def askBehindNull : Fields :=
  [("role", .str "assistant"), ("tool_calls", .null),
    ("toolCalls", .list [.dict (clockCall (.str ""))])]

def argumentTexts (m : Message) : List (Option String) :=
  m.toolCalls.map fun call => (ToolCall.ofObject? call).bind fun call => call.arguments.text?

/-- Null arguments are turned down, and calls behind a null are not found. -/
theorem differs_of_null :
    ¬ Matches (ofValue (.dict (askForTime .null)))
        (ofValue (.dict (withoutNulls (askForTime .null)))) ∧
      (∃ made, ToolCall.ofValue (.dict (clockCall .null)) = .ok made ∧
        made.argumentFields = invalid (.argumentsNotObject (.str "c1"))) ∧
      ¬ Matches (ofValue (.dict askBehindNull))
        (ofValue (.dict (withoutNulls askBehindNull))) := by
  refine ⟨?_, ⟨_, rfl, rfl⟩, ?_⟩
  · intro h
    have htexts := congrArg (Option.map argumentTexts) h.toOption_eq
    revert htexts
    decide +kernel
  · intro h
    have htexts := congrArg (Option.map argumentTexts) h.toOption_eq
    revert htexts
    decide +kernel

end Message

end Parley
