import Parley.Proofs.Outcome
import Parley.Proofs.Tool.Positions

/-!
# Keywords in the Gemini dialect

What becomes of the value of one keyword of a schema: of types, which have tokens of their own, of
values that hold schemas, and of all the others, which stay as they are.

* `Names`, `TypeToken`, `TypeChoice`: the type in the dialect; `putType_cases`;
* `HoldsSchemas`: the values that have places for schemas; `geminiKeyword_data`;
* `Translated`, `translated_cases`, `error_cases`: a value that can be translated as a schema, and
  one that cannot;
* `rel_within?`, `exists_place_of_error`: a keyword's value is translated place by place, and only
  what stands at a place can keep it from being.
-/

namespace Parley

namespace Tool

/-! ## Types -/

def Names (type token : String) : Prop :=
  (type, token) ∈ [("string", "STRING"), ("number", "NUMBER"), ("integer", "INTEGER"),
    ("boolean", "BOOLEAN"), ("array", "ARRAY"), ("object", "OBJECT"), ("null", "NULL")]

/-- The token of a type: that of the dialect if the type is known, however it is capitalised, else
the type in upper case. What is no text stays as it is. -/
inductive TypeToken : Value → Value → Prop where
  | known {s token : String} (named : Names (String.ofList (Text.lower s.toList)) token) :
      TypeToken (.str s) (.str token)
  | unknown {s : String} (nameless : ∀ token, ¬Names (String.ofList (Text.lower s.toList)) token) :
      TypeToken (.str s) (.str (String.ofList (Text.upper s.toList)))
  | other {v : Value} (textless : ∀ s, v ≠ .str s) : TypeToken v v

/-- The type that takes the place of that of a schema. Of a list of types it is the first one that
is not null, or the null type if there is none. -/
inductive TypeChoice : Value → Value → Prop where
  | single {v token : Value} (alone : ∀ types, v ≠ .list types) (named : TypeToken v token) :
      TypeChoice v token
  | first {before after : List Value} {t token : Value} (nulls : ∀ s ∈ before, s = .str "null")
      (concrete : t ≠ .str "null") (named : TypeToken t token) :
      TypeChoice (.list (before ++ t :: after)) token
  | none {types : List Value} (nulls : ∀ t ∈ types, t = .str "null") :
      TypeChoice (.list types) (.str "NULL")

def ListsNull (v : Value) : Prop :=
  ∃ types, v = .list types ∧ .str "null" ∈ types

/-- The token of a value is one of those that the dialect has, or the value in capitals. -/
theorem typeToken_typeToken (v : Value) : TypeToken v (typeToken v) := by
  cases v with
  | str s =>
    unfold typeToken
    dsimp only
    split
    next token hknown => exact .known (mem_of_lookup hknown)
    next hunknown =>
      refine .unknown fun token hnamed => ?_
      have hne := List.lookup_eq_none_iff.1 hunknown _ hnamed
      simp at hne
  | _ =>
    refine .other ?_
    rintro s ⟨⟩

/-- Only the text itself is the null type. -/
theorem isText_null_iff {v : Value} : v.isText "null" = true ↔ v = .str "null" :=
  ⟨Value.eq_str_of_isText, fun h => by simp [h]⟩

/-- Of a list the first type that is not null is chosen. -/
theorem typeChoice_filter (types : List Value) :
    TypeChoice (.list types) (match types.filter fun t => !t.isText "null" with
      | [] => .str "NULL"
      | t :: _ => typeToken t) := by
  split
  next hnone =>
    refine .none fun t ht => ?_
    have hnull := List.filter_eq_nil_iff.1 hnone t ht
    simpa [isText_null_iff] using hnull
  next t rest hsome =>
    -- what stands before the first concrete type is null
    rcases List.filter_eq_cons_iff.1 hsome with ⟨before, after, rfl, hnulls, hconcrete, -⟩
    refine .first (fun s hs => ?_) ?_ (typeToken_typeToken t)
    · simpa [isText_null_iff] using hnulls s hs
    · rintro rfl
      exact absurd hconcrete (by decide)

/-- Setting the type sets nothing else, but for the mark that null is allowed. -/
theorem putType_cases (fields : Fields) (v : Value) :
    ∃ token, TypeChoice v token ∧
      ((ListsNull v ∧
          putType fields v = Fields.put (Fields.put fields "nullable" (.bool true)) "type" token) ∨
        (¬ListsNull v ∧ putType fields v = Fields.put fields "type" token)) := by
  cases v with
  | list types =>
    have hnull : (types.filter fun t => !t.isText "null").length < types.length ↔
        ListsNull (.list types) := by
      simp [List.length_filter_lt_length_iff_exists, ListsNull, isText_null_iff]
    refine ⟨_, typeChoice_filter types, ?_⟩
    by_cases hlists : ListsNull (.list types)
    · refine .inl ⟨hlists, ?_⟩
      exact congrArg (Fields.put · "type" _) (if_pos (hnull.2 hlists))
    · refine .inr ⟨hlists, ?_⟩
      exact congrArg (Fields.put · "type" _) (if_neg fun h => hlists (hnull.1 h))
  | _ =>
    refine ⟨_, .single (by rintro types ⟨⟩) (typeToken_typeToken _), .inr ⟨?_, rfl⟩⟩
    rintro ⟨types, ⟨⟩, -⟩

/-! ## Keywords that hold schemas -/

/-- Properties are translated one by one. -/
theorem geminiProperties_eq (properties : Fields) :
    geminiProperties properties =
      properties.mapM fun p => do return (p.1, ← geminiSchema p.2) := by
  induction properties with
  | nil => rfl
  | cons p rest ih =>
    rcases p with ⟨name, v⟩
    rw [geminiProperties, ih, List.mapM_cons]
    simp

/-- Members are translated one by one. -/
theorem geminiMembers_eq (members : List Value) :
    geminiMembers members = members.mapM geminiSchema := by
  induction members with
  | nil => rfl
  | cons v rest ih => rw [geminiMembers, ih, List.mapM_cons]

abbrev Translated (v w : Value) : Prop :=
  geminiSchema v = .ok w

/-- A value that has places for schemas under a keyword. -/
def HoldsSchemas (keyword : String) : Value → Prop
  | .dict _ => keyword = "properties" ∨ keyword = "items"
  | .list _ => Combines keyword
  | _ => False

/-- What stands under `properties` is translated by name. -/
theorem geminiKeyword_properties (properties : Fields) :
    geminiKeyword "properties" (.dict properties) =
      (do return .dict (← properties.mapM fun p => do return (p.1, ← geminiSchema p.2))) := by
  rw [← geminiProperties_eq]
  rfl

/-- What stands under a keyword that combines schemas is translated member by member. -/
theorem geminiKeyword_members {keyword : String} (known : Combines keyword)
    (members : List Value) :
    geminiKeyword keyword (.list members) =
      (do return .list (← members.mapM geminiSchema)) := by
  have hcontains : combinators.contains keyword = true := List.contains_iff_mem.2 known
  rw [← geminiMembers_eq]
  simp only [geminiKeyword, hcontains, if_true]

/-- A value that has no places for schemas stays as it is. -/
theorem geminiKeyword_data {keyword : String} {v : Value} (h : ¬HoldsSchemas keyword v) :
    geminiKeyword keyword v = .ok v := by
  cases v with
  | dict fields =>
    rcases not_or.1 h with ⟨hproperties, hitems⟩
    simp only [geminiKeyword, if_neg hproperties, if_neg hitems]
    rfl
  | list members =>
    have hcontains : combinators.contains keyword = false := by
      exact Bool.eq_false_iff.2 fun hknown => h (List.contains_iff_mem.1 hknown)
    simp only [geminiKeyword, hcontains]
    rfl
  | _ => rfl

/-- A property is translated exactly if it is there. -/
theorem rel_lookup_mapM {properties converted : Fields} (name : String)
    (h : properties.mapM (fun p => do return (p.1, ← geminiSchema p.2)) = .ok converted) :
    Option.Rel Translated (properties.lookup name) (converted.lookup name) := by
  rw [Outcome.mapM_eq_ok_iff] at h
  induction h with
  | nil => exact .none
  | @cons p q rest others hp _ ih =>
    rcases Outcome.of_bind_eq_ok hp with ⟨w, hw, ⟨⟩⟩
    rcases p with ⟨key, v⟩
    by_cases hname : name = key
    · subst hname
      simpa using hw
    · have hbeq : (name == key) = false := by simpa using hname
      simpa [List.lookup_cons, hbeq] using ih

/-- A member is translated exactly if it is there. -/
theorem rel_getElem?_mapM {members converted : List Value} (position : Nat)
    (h : members.mapM geminiSchema = .ok converted) :
    Option.Rel Translated members[position]? converted[position]? :=
  rel_getElem? (Outcome.mapM_eq_ok_iff.1 h) position

/-- A value without places for schemas has nothing at the places of its keyword. -/
theorem Place.within?_data {place : Place} {v : Value} (h : ¬HoldsSchemas place.keyword v) :
    place.within? v = none := by
  cases place with
  | property name =>
    cases v with
    | dict properties => exact absurd (.inl rfl) h
    | _ => rfl
  | items =>
    cases v with
    | dict fields => exact absurd (.inr rfl) h
    | _ => rfl
  | member keyword position known =>
    cases v with
    | list members => exact absurd known h
    | _ => rfl

/-! ## Schemas by what they are -/

/-- What the dialect has in place of a schema that says nothing. -/
def anyObject : Value :=
  .dict [("type", .str "OBJECT"), ("properties", .dict [])]

/-- A schema that says nothing admits any object. -/
theorem geminiSchema_blank {v : Value} (h : v.truthy = false) : geminiSchema v = .ok anyObject := by
  cases v with
  | dict fields =>
    cases fields with
    | nil => rfl
    | cons f rest => cases h
  | _ => simp [geminiSchema, h, wrapSchema, anyObject]

/-- A dictionary is translated field by field. -/
theorem geminiSchema_dict {fields : Fields} (h : fields ≠ []) :
    geminiSchema (.dict fields) = (do return .dict (← geminiFields [] fields)) := by
  have hempty : fields.isEmpty = false := by simpa using h
  simp [geminiSchema, wrapSchema, hempty]

/-- What is no dictionary has no translation. -/
theorem geminiSchema_other {v : Value} (hsome : v.truthy = true)
    (hdict : ∀ fields, v ≠ .dict fields) : geminiSchema v = v.callMissing "items" := by
  cases v with
  | dict fields => exact absurd rfl (hdict fields)
  | _ => simp [geminiSchema, hsome]

/-- A schema or what counts as nothing, as opposed to any other value. -/
def IsSchema (v : Value) : Prop :=
  v.truthy = false ∨ ∃ fields, v = .dict fields

/-- What can be translated either says nothing or is a dictionary whose fields are. -/
theorem translated_cases {v w : Value} (h : Translated v w) :
    (v.truthy = false ∧ w = anyObject) ∨ ∃ fields out, v = .dict fields ∧ fields ≠ [] ∧
      geminiFields [] fields = .ok out ∧ w = .dict out := by
  by_cases hblank : v.truthy = false
  · rw [Translated, geminiSchema_blank hblank] at h
    cases h
    exact .inl ⟨hblank, rfl⟩
  · have hsome : v.truthy = true := by simpa using hblank
    by_cases hdict : ∃ fields, v = .dict fields
    · rcases hdict with ⟨fields, rfl⟩
      have hne : fields ≠ [] := by
        rintro rfl
        cases hsome
      rw [Translated, geminiSchema_dict hne] at h
      rcases Outcome.of_bind_eq_ok h with ⟨out, hout, ⟨⟩⟩
      exact .inr ⟨fields, out, rfl, hne, hout, rfl⟩
    · rw [Translated, geminiSchema_other hsome (not_exists.1 hdict)] at h
      exact absurd h (Value.callMissing_ne_ok v "items" w)

/-- What cannot be translated is no schema, or has a field that cannot be. -/
theorem error_cases {v : Value} {fault : Fault} (h : geminiSchema v = .error fault) :
    (¬IsSchema v ∧ (v.callMissing "items" : Outcome Value) = .error fault) ∨
      ∃ fields, v = .dict fields ∧ geminiFields [] fields = .error fault := by
  by_cases hschema : IsSchema v
  · rcases hschema with hblank | ⟨fields, rfl⟩
    · rw [geminiSchema_blank hblank] at h
      cases h
    · rw [geminiSchema] at h
      rcases Outcome.bind_eq_error_iff.1 h with hfields | ⟨out, -, ⟨⟩⟩
      exact .inr ⟨fields, rfl, hfields⟩
  · rcases not_or.1 hschema with ⟨hsome, hdict⟩
    rw [geminiSchema_other (by simpa using hsome) (not_exists.1 hdict)] at h
    exact .inl ⟨hschema, h⟩

theorem Translated.isSchema {v w : Value} (h : Translated v w) : IsSchema v := by
  rcases translated_cases h with ⟨hblank, -⟩ | ⟨fields, -, rfl, -⟩
  · exact .inl hblank
  · exact .inr ⟨fields, rfl⟩

/-- They are translated to dictionaries. -/
theorem Translated.exists_dict {v w : Value} (h : Translated v w) :
    ∃ fields, w = .dict fields := by
  rcases translated_cases h with ⟨-, rfl⟩ | ⟨-, out, -, -, -, rfl⟩
  · exact ⟨_, rfl⟩
  · exact ⟨out, rfl⟩

/-! ## What stands at the places of a keyword -/

/-- What stands at a place of a keyword is translated where it stands. -/
theorem rel_within? {place : Place} {v w : Value}
    (h : geminiKeyword place.keyword v = .ok w) :
    Option.Rel Translated (place.within? v) (place.within? w) := by
  by_cases hholds : HoldsSchemas place.keyword v
  · cases place with
    | property name =>
      cases v with
      | dict properties =>
        rw [Place.keyword, geminiKeyword_properties] at h
        rcases Outcome.of_bind_eq_ok h with ⟨converted, hconverted, ⟨⟩⟩
        exact rel_lookup_mapM name hconverted
      | list members =>
        have hknown : Combines "properties" := hholds
        exact absurd hknown (by decide)
      | _ => cases hholds
    | items =>
      cases v with
      | dict fields =>
        -- under this keyword the dictionary is itself the schema
        have htranslated : Translated (.dict fields) w := h
        rcases htranslated.exists_dict with ⟨converted, rfl⟩
        exact .some htranslated
      | list members =>
        have hknown : Combines "items" := hholds
        exact absurd hknown (by decide)
      | _ => cases hholds
    | member keyword position known =>
      cases v with
      | list members =>
        rw [Place.keyword, geminiKeyword_members known] at h
        rcases Outcome.of_bind_eq_ok h with ⟨converted, hconverted, ⟨⟩⟩
        exact rel_getElem?_mapM position hconverted
      | dict fields =>
        rcases hholds with rfl | rfl
        · exact absurd known (by decide)
        · exact absurd known (by decide)
      | _ => cases hholds
  · rw [geminiKeyword_data hholds] at h
    cases h
    rw [Place.within?_data hholds]
    exact .none

/-- A keyword whose value has no translation has a place where something has none. -/
theorem exists_place_of_error {keyword : String} {v : Value} {fault : Fault}
    (hdistinct : Json.distinct v = true) (h : geminiKeyword keyword v = .error fault) :
    ∃ (place : Place) (w : Value), place.keyword = keyword ∧ place.within? v = some w ∧
      geminiSchema w = .error fault := by
  by_cases hholds : HoldsSchemas keyword v
  · cases v with
    | dict fields =>
      rcases hholds with rfl | rfl
      · rw [geminiKeyword_properties] at h
        rcases Outcome.bind_eq_error_iff.1 h with h | ⟨converted, -, ⟨⟩⟩
        rcases Outcome.exists_of_mapM_eq_error h with ⟨⟨name, w⟩, hmem, h⟩
        rcases Outcome.bind_eq_error_iff.1 h with hw | ⟨converted, -, ⟨⟩⟩
        have hkeys := (Json.distinct_dict.1 hdistinct).1
        exact ⟨.property name, w, rfl, Fields.lookup_of_mem hkeys hmem, hw⟩
      · exact ⟨.items, .dict fields, rfl, rfl, h⟩
    | list members =>
      rw [geminiKeyword_members hholds] at h
      rcases Outcome.bind_eq_error_iff.1 h with h | ⟨converted, -, ⟨⟩⟩
      rcases Outcome.exists_of_mapM_eq_error h with ⟨w, hmem, hw⟩
      rcases List.mem_iff_getElem?.1 hmem with ⟨position, hposition⟩
      exact ⟨.member keyword position hholds, w, rfl, hposition, hw⟩
    | _ => cases hholds
  · rw [geminiKeyword_data hholds] at h
    cases h

end Tool

end Parley
