import Parley.Proofs.Tool.GeminiKeywords

/-!
# Schemas in the Gemini dialect

A schema is translated field by field, and the schemas inside it where they stand. So the
translation has the same positions, and what it says at each of them depends only on what the schema
says there.

* `Dropped`: the keywords that have no translation;
* `Adds`, `Writes`: what one field adds to the translation, and which keys it sets;
* `Rewrites`: the fields that a schema becomes, `rewrites_of_geminiFields`;
* `exists_translated_iff`: only something at a position that is no schema keeps a schema from being
  translated;
* `rewritten_at_positions`: the translation at all positions.

A key is written by the field that has it, but for the mark that null is allowed, which a list of
types writes too. Facts about the value of a key are about its last writer.
-/

namespace Parley

namespace Tool

/-! ## One field after the other -/

def Dropped (key : String) : Prop :=
  key ∈ ["$schema", "$id", "$defs", "definitions", "additionalProperties", "strict"]

instance (key : String) : Decidable (Dropped key) :=
  List.instDecidableMemOfLawfulBEq _ _

/-- What a field of a schema adds to the fields translated so far. -/
inductive Adds (before : Fields) : String × Value → Fields → Prop where
  | dropped {key : String} {v : Value} (unknown : Dropped key) :
      Adds before (key, v) before
  | type {v token : Value} (concrete : ¬ListsNull v) (choice : TypeChoice v token) :
      Adds before ("type", v) (Fields.put before "type" token)
  | nullable {v token : Value} (null : ListsNull v) (choice : TypeChoice v token) :
      Adds before ("type", v)
        (Fields.put (Fields.put before "nullable" (.bool true)) "type" token)
  | keyword {key : String} {v w : Value} (known : ¬Dropped key) (other : key ≠ "type")
      (made : geminiKeyword key v = .ok w) : Adds before (key, v) (Fields.put before key w)

/-- The first field is added, and then the others are. -/
theorem of_geminiFields_cons {before rest out : Fields} {f : String × Value}
    (h : geminiFields before (f :: rest) = .ok out) :
    ∃ next, Adds before f next ∧ geminiFields next rest = .ok out := by
  rcases f with ⟨key, v⟩
  rw [geminiFields] at h
  by_cases hdropped : droppedKeywords.contains key = true
  · rw [if_pos hdropped] at h
    exact ⟨before, .dropped (List.contains_iff_mem.1 hdropped), h⟩
  · rw [if_neg hdropped] at h
    by_cases htype : key = "type"
    · subst htype
      rw [if_pos rfl] at h
      rcases putType_cases before v with ⟨token, hchoice, ⟨hnull, hput⟩ | ⟨hconcrete, hput⟩⟩
      · rw [hput] at h
        exact ⟨_, .nullable hnull hchoice, h⟩
      · rw [hput] at h
        exact ⟨_, .type hconcrete hchoice, h⟩
    · rw [if_neg htype] at h
      rcases Outcome.of_bind_eq_ok h with ⟨w, hw, h⟩
      have hknown : ¬Dropped key := fun hunknown => hdropped (List.contains_iff_mem.2 hunknown)
      exact ⟨_, .keyword hknown htype hw, h⟩

/-- Fields are translated in their order, behind those translated before. -/
theorem geminiFields_append (before fields rest : Fields) :
    geminiFields before (fields ++ rest) =
      (do geminiFields (← geminiFields before fields) rest) := by
  induction fields generalizing before with
  | nil => rfl
  | cons f fields ih =>
    rcases f with ⟨key, v⟩
    simp only [List.cons_append, geminiFields]
    split
    · exact ih before
    · split
      · exact ih _
      · rw [bind_assoc]
        exact bind_congr fun w => ih _

/-- A fault in the translation of some fields is that of the value of one of them. -/
theorem exists_field_of_error {before fields : Fields} {fault : Fault}
    (h : geminiFields before fields = .error fault) :
    ∃ f ∈ fields, geminiKeyword f.1 f.2 = .error fault := by
  induction fields generalizing before with
  | nil => cases h
  | cons f rest ih =>
    rcases f with ⟨key, v⟩
    -- the fault is further on unless the value of this field has it
    have hlater {next : Fields} (hrest : geminiFields next rest = .error fault) :
        ∃ f ∈ (key, v) :: rest, geminiKeyword f.1 f.2 = .error fault := by
      rcases ih hrest with ⟨f, hf, hfault⟩
      exact ⟨f, List.mem_cons_of_mem _ hf, hfault⟩
    rw [geminiFields] at h
    split at h
    · exact hlater h
    · split at h
      · exact hlater h
      · rcases Outcome.bind_eq_error_iff.1 h with hv | ⟨w, -, hrest⟩
        · exact ⟨(key, v), List.mem_cons_self, hv⟩
        · exact hlater hrest

/-- Putting a field adds its key and no other. -/
theorem mem_keys_put {fields : Fields} {key other : String} {v : Value} :
    other ∈ (Fields.put fields key v).map Prod.fst ↔
      other ∈ fields.map Prod.fst ∨ other = key := by
  by_cases hkey : key ∈ fields.map Prod.fst
  · rw [Json.map_fst_put_of_mem v hkey]
    refine ⟨.inl, ?_⟩
    rintro (hother | rfl)
    · exact hother
    · exact hkey
  · rw [Json.put_of_not_mem v hkey]
    simp

/-- A field of a schema sets a key of the translation: its own, unless that is dropped, and the mark
that null is allowed. -/
def Writes (f : String × Value) (key : String) : Prop :=
  ¬Dropped f.1 ∧ (key = f.1 ∨ (key = "nullable" ∧ f.1 = "type" ∧ ListsNull f.2))

theorem type_known : ¬Dropped "type" := by
  decide

/-- A keyword that is known writes under itself. -/
theorem writes_own {key : String} (known : ¬Dropped key) (v : Value) :
    Writes (key, v) key :=
  ⟨known, .inl rfl⟩

/-- A type list with null in it writes a flag besides. -/
theorem writes_nullable {v : Value} (null : ListsNull v) : Writes ("type", v) "nullable" :=
  ⟨type_known, .inr ⟨rfl, rfl, null⟩⟩

namespace Adds

variable {before next : Fields} {f : String × Value} {key : String}

/-- What a field does not write stays as it was. -/
theorem lookup_of_not_writes (h : Adds before f next) (hnot : ¬Writes f key) :
    next.lookup key = before.lookup key := by
  cases h with
  | dropped unknown => rfl
  | @type v token concrete choice =>
    refine Fields.lookup_put_of_ne _ _ ?_
    rintro rfl
    exact hnot (writes_own type_known v)
  | @nullable v token null choice =>
    have htype : key ≠ "type" := by
      rintro rfl
      exact hnot (writes_own type_known v)
    have hnullable : key ≠ "nullable" := by
      rintro rfl
      exact hnot (writes_nullable null)
    rw [Fields.lookup_put_of_ne _ _ htype, Fields.lookup_put_of_ne _ _ hnullable]
  | @keyword own v w known other made =>
    refine Fields.lookup_put_of_ne _ _ ?_
    rintro rfl
    exact hnot (writes_own known v)

/-- The keys are those that were there and those that are written. -/
theorem mem_keys_iff (h : Adds before f next) :
    key ∈ next.map Prod.fst ↔ key ∈ before.map Prod.fst ∨ Writes f key := by
  cases h with
  | dropped unknown => simp [Writes, unknown]
  | type concrete choice => simp [mem_keys_put, Writes, concrete, type_known]
  | @nullable v token null choice =>
    have hwrites : Writes ("type", v) key ↔ key = "nullable" ∨ key = "type" := by
      simp [Writes, type_known, null, or_comm]
    rw [mem_keys_put, mem_keys_put, hwrites, or_assoc]
  | keyword known other made => simp [mem_keys_put, Writes, known, other]

/-- Adding a field keeps the keys distinct. -/
theorem nodup (h : Adds before f next) (hbefore : (before.map Prod.fst).Nodup) :
    (next.map Prod.fst).Nodup := by
  cases h with
  | dropped unknown => exact hbefore
  | type concrete choice => exact Json.nodup_put _ hbefore
  | nullable null choice => exact Json.nodup_put _ (Json.nodup_put _ hbefore)
  | keyword known other made => exact Json.nodup_put _ hbefore

end Adds

section Run

variable {before fields out : Fields} {key : String}

/-- What none of the fields writes stays as it was. -/
theorem lookup_of_not_writes (h : geminiFields before fields = .ok out)
    (hnot : ∀ f ∈ fields, ¬Writes f key) : out.lookup key = before.lookup key := by
  induction fields generalizing before with
  | nil =>
    cases h
    rfl
  | cons f rest ih =>
    rcases of_geminiFields_cons h with ⟨next, hadds, hrest⟩
    calc out.lookup key
        = next.lookup key := ih hrest fun g hg => hnot g (List.mem_cons_of_mem f hg)
      _ = before.lookup key := hadds.lookup_of_not_writes (hnot f List.mem_cons_self)

/-- The keys of a translation are those that its fields write. -/
theorem mem_keys_iff (h : geminiFields before fields = .ok out) :
    key ∈ out.map Prod.fst ↔ key ∈ before.map Prod.fst ∨ ∃ f ∈ fields, Writes f key := by
  induction fields generalizing before with
  | nil =>
    cases h
    simp
  | cons f rest ih =>
    rcases of_geminiFields_cons h with ⟨next, hadds, hrest⟩
    rw [ih hrest, hadds.mem_keys_iff]
    simp [or_assoc]

/-- The keys of a translation are distinct. -/
theorem nodup_of_geminiFields (h : geminiFields before fields = .ok out)
    (hbefore : (before.map Prod.fst).Nodup) : (out.map Prod.fst).Nodup := by
  induction fields generalizing before with
  | nil =>
    cases h
    exact hbefore
  | cons f rest ih =>
    rcases of_geminiFields_cons h with ⟨next, hadds, hrest⟩
    exact ih hrest (hadds.nodup hbefore)

/-- A key that only one field writes is as that field leaves it. -/
theorem exists_adds_of_writer {f : String × Value} (hkeys : (fields.map Prod.fst).Nodup)
    (h : geminiFields before fields = .ok out) (hf : f ∈ fields)
    (honly : ∀ g ∈ fields, Writes g key → g = f) :
    ∃ earlier next, Adds earlier f next ∧ out.lookup key = next.lookup key := by
  rcases List.append_of_mem hf with ⟨front, back, rfl⟩
  rw [geminiFields_append] at h
  rcases Outcome.of_bind_eq_ok h with ⟨earlier, -, h⟩
  rcases of_geminiFields_cons h with ⟨next, hadds, hback⟩
  refine ⟨earlier, next, hadds, lookup_of_not_writes hback fun g hg hwrites => ?_⟩
  -- a further writer would be the same field once more, and no key stands twice
  have hsame : g = f := honly g (by simp [hg]) hwrites
  subst hsame
  rw [List.map_append, List.map_cons, List.nodup_append, List.nodup_cons] at hkeys
  exact hkeys.2.1.1 (List.mem_map_of_mem hg)

end Run

/-! ## One schema -/

/-- A keyword that has places stands for nothing else. -/
theorem Place.keyword_plain (place : Place) :
    ¬Dropped place.keyword ∧ place.keyword ≠ "type" ∧ place.keyword ≠ "nullable" := by
  have hmembers : ∀ keyword ∈ combinators,
      ¬Dropped keyword ∧ keyword ≠ "type" ∧ keyword ≠ "nullable" := by
    decide
  cases place with
  | property name =>
    have hproperties : ¬Dropped "properties" ∧ "properties" ≠ "type" ∧
        "properties" ≠ "nullable" := by
      decide
    exact hproperties
  | items => decide
  | member keyword position known => exact hmembers keyword known

/-- Fields that say in the dialect what a schema says, the schemas inside it aside. -/
structure Rewrites (fields out : Fields) : Prop where
  distinct : (out.map Prod.fst).Nodup
  keys : ∀ key, key ∈ out.map Prod.fst ↔
    (key ∈ fields.map Prod.fst ∧ ¬Dropped key) ∨
      (key = "nullable" ∧ ListsNull (fields.value "type"))
  type : ∀ v, fields.lookup "type" = some v →
    ∃ token, TypeChoice v token ∧ out.lookup "type" = some token
  nullable : ListsNull (fields.value "type") → "nullable" ∉ fields.map Prod.fst →
    out.lookup "nullable" = some (.bool true)
  properties : ∀ properties, fields.lookup "properties" = some (.dict properties) →
    ∃ converted, out.lookup "properties" = some (.dict converted) ∧
      converted.map Prod.fst = properties.map Prod.fst
  members : ∀ keyword, Combines keyword → ∀ members, fields.lookup keyword = some (.list members) →
    ∃ converted, out.lookup keyword = some (.list converted) ∧ converted.length = members.length
  data : ∀ key v, fields.lookup key = some v → ¬Dropped key → key ≠ "type" →
    ¬HoldsSchemas key v → ¬(key = "nullable" ∧ ListsNull (fields.value "type")) →
    out.lookup key = some v

/-- The type lists null exactly if it stands in the schema and does. -/
theorem listsNull_value_iff {fields : Fields} {key : String} :
    ListsNull (fields.value key) ↔ ∃ v, fields.lookup key = some v ∧ ListsNull v := by
  cases h : fields.lookup key with
  | none =>
    have hnull : ¬ListsNull .null := by
      rintro ⟨types, ⟨⟩, -⟩
    simp [Fields.value, Fields.valueOr, h, hnull]
  | some v => simp [Fields.value, Fields.valueOr, h]

section Schema

variable {fields out : Fields} (hkeys : (fields.map Prod.fst).Nodup)
  (h : geminiFields [] fields = .ok out)

include hkeys h

/-- What a keyword has in the translation, unless its key is written for the type as well. -/
theorem exists_geminiKeyword {key : String} {v : Value} (hlookup : fields.lookup key = some v)
    (hknown : ¬Dropped key) (htype : key ≠ "type")
    (hmark : ¬(key = "nullable" ∧ ListsNull (fields.value "type"))) :
    ∃ w, geminiKeyword key v = .ok w ∧ out.lookup key = some w := by
  have hmem : (key, v) ∈ fields := mem_of_lookup hlookup
  have honly : ∀ g ∈ fields, Writes g key → g = (key, v) := by
    rintro g hg ⟨-, hown | ⟨hkey, hgtype, hnull⟩⟩
    · exact List.inj_on_of_nodup_map hkeys hg hmem hown.symm
    · rcases g with ⟨other, types⟩
      cases hgtype
      exact absurd ⟨hkey, listsNull_value_iff.2 ⟨types, Fields.lookup_of_mem hkeys hg, hnull⟩⟩ hmark
  rcases exists_adds_of_writer hkeys h hmem honly with ⟨earlier, next, hadds, hout⟩
  cases hadds with
  | dropped unknown => exact absurd unknown hknown
  | type concrete choice => exact absurd rfl htype
  | nullable null choice => exact absurd rfl htype
  | keyword known other made => exact ⟨_, made, by rw [hout, Fields.lookup_put_self]⟩

/-- Under a keyword that holds schemas stands their translation. -/
theorem rel_lookup_keyword (place : Place) :
    Option.Rel (fun v w => geminiKeyword place.keyword v = .ok w) (fields.lookup place.keyword)
      (out.lookup place.keyword) := by
  rcases place.keyword_plain with ⟨hknown, htype, hnullable⟩
  cases hlookup : fields.lookup place.keyword with
  | some v =>
    rcases exists_geminiKeyword hkeys h hlookup hknown htype fun h => hnullable h.1 with
      ⟨w, hw, hout⟩
    rw [hout]
    exact .some hw
  | none =>
    have hnone : ∀ f ∈ fields, ¬Writes f place.keyword := by
      rintro f hf ⟨-, hown | ⟨hmark, -⟩⟩
      · have hne := List.lookup_eq_none_iff.1 hlookup f hf
        simp [hown] at hne
      · exact hnullable hmark
    rw [lookup_of_not_writes h hnone]
    exact .none

/-- Where there is a type there is a token of it. -/
theorem exists_typeChoice {v : Value} (hlookup : fields.lookup "type" = some v) :
    ∃ token, TypeChoice v token ∧ out.lookup "type" = some token := by
  have hmem : ("type", v) ∈ fields := mem_of_lookup hlookup
  have honly : ∀ g ∈ fields, Writes g "type" → g = ("type", v) := by
    rintro g hg ⟨-, hown | ⟨hkey, -⟩⟩
    · exact List.inj_on_of_nodup_map hkeys hg hmem hown.symm
    · exact absurd hkey (by decide)
  rcases exists_adds_of_writer hkeys h hmem honly with ⟨earlier, next, hadds, hout⟩
  cases hadds with
  | dropped unknown => exact absurd unknown type_known
  | type concrete choice => exact ⟨_, choice, by rw [hout, Fields.lookup_put_self]⟩
  | nullable null choice => exact ⟨_, choice, by rw [hout, Fields.lookup_put_self]⟩
  | keyword known other made => exact absurd rfl other

/-- A type list with null in it makes the schema nullable, if the schema does not say so itself. -/
theorem lookup_nullable (hnull : ListsNull (fields.value "type"))
    (hnone : "nullable" ∉ fields.map Prod.fst) : out.lookup "nullable" = some (.bool true) := by
  rcases listsNull_value_iff.1 hnull with ⟨v, hlookup, hv⟩
  have hmem : ("type", v) ∈ fields := mem_of_lookup hlookup
  have honly : ∀ g ∈ fields, Writes g "nullable" → g = ("type", v) := by
    rintro g hg ⟨-, hown | ⟨-, hgtype, -⟩⟩
    · exact absurd (hown ▸ List.mem_map_of_mem hg) hnone
    · exact List.inj_on_of_nodup_map hkeys hg hmem hgtype
  rcases exists_adds_of_writer hkeys h hmem honly with ⟨earlier, next, hadds, hout⟩
  cases hadds with
  | dropped unknown => exact absurd unknown type_known
  | type concrete choice => exact absurd hv concrete
  | nullable null choice =>
    rw [hout, Fields.lookup_put_of_ne _ _ (by decide), Fields.lookup_put_self]
  | keyword known other made => exact absurd rfl other

/-- What is made of a schema, field by field, rewrites it. -/
theorem rewrites_of_geminiFields : Rewrites fields out where
  distinct := nodup_of_geminiFields h List.nodup_nil
  keys := by
    intro key
    rw [mem_keys_iff h, listsNull_value_iff]
    constructor
    · rintro (hnone | ⟨f, hf, hknown, rfl | ⟨rfl, htype, hnull⟩⟩)
      · cases hnone
      · exact .inl ⟨List.mem_map_of_mem hf, hknown⟩
      · rcases f with ⟨other, types⟩
        cases htype
        exact .inr ⟨rfl, types, Fields.lookup_of_mem hkeys hf, hnull⟩
    · rintro (⟨hmem, hknown⟩ | ⟨rfl, types, hlookup, hnull⟩)
      · rcases List.mem_map.1 hmem with ⟨⟨own, v⟩, hf, rfl⟩
        exact .inr ⟨_, hf, writes_own hknown v⟩
      · exact .inr ⟨_, mem_of_lookup hlookup, writes_nullable hnull⟩
  type := fun v hlookup => exists_typeChoice hkeys h hlookup
  nullable := lookup_nullable hkeys h
  properties := by
    intro properties hlookup
    rcases exists_geminiKeyword hkeys h hlookup (by decide) (by decide) (by simp) with
      ⟨w, hw, hout⟩
    rw [geminiKeyword_properties] at hw
    rcases Outcome.of_bind_eq_ok hw with ⟨converted, hconverted, ⟨⟩⟩
    refine ⟨converted, hout, (map_eq_map_of_forall₂ (Outcome.mapM_eq_ok_iff.1 hconverted) ?_).symm⟩
    intro p _ q hq
    rcases Outcome.of_bind_eq_ok hq with ⟨w, -, ⟨⟩⟩
    rfl
  members := by
    intro keyword hknown members hlookup
    rcases (Place.member keyword 0 hknown).keyword_plain with ⟨hdropped, htype, hnullable⟩
    rcases exists_geminiKeyword hkeys h hlookup hdropped htype fun h => hnullable h.1 with
      ⟨w, hw, hout⟩
    rw [geminiKeyword_members hknown] at hw
    rcases Outcome.of_bind_eq_ok hw with ⟨converted, hconverted, ⟨⟩⟩
    exact ⟨converted, hout, (Outcome.mapM_eq_ok_iff.1 hconverted).length_eq.symm⟩
  data := by
    intro key v hlookup hknown htype hdata hmark
    rcases exists_geminiKeyword hkeys h hlookup hknown htype hmark with ⟨w, hw, hout⟩
    rw [geminiKeyword_data hdata] at hw
    cases hw
    exact hout

end Schema

/-! ## All positions -/

/-- A schema that says nothing has no positions. -/
theorem inner?_blank {v : Value} (h : v.truthy = false) (place : Place) :
    inner? v place = none := by
  cases v with
  | dict fields =>
    cases fields with
    | nil => rfl
    | cons f rest => cases h
  | _ => rfl

/-- The schema that admits any object has none either. -/
theorem inner?_anyObject (place : Place) : inner? anyObject place = none := by
  cases place with
  | property name => rfl
  | items => rfl
  | member keyword position known =>
    have hother : ∀ keyword ∈ combinators,
        List.lookup keyword [("type", Value.str "OBJECT"), ("properties", .dict [])] = none := by
      simp [combinators, List.lookup_cons]
    simp only [inner?, anyObject, Place.keyword, hother keyword known, Option.bind_none]

/-- What stands at a place of a schema is translated where it stands. -/
theorem rel_inner? {schema out : Value} (hdistinct : Json.distinct schema = true)
    (h : Translated schema out) (place : Place) :
    Option.Rel Translated (inner? schema place) (inner? out place) := by
  rcases translated_cases h with ⟨hblank, rfl⟩ | ⟨fields, converted, rfl, -, hfields, rfl⟩
  · rw [inner?_blank hblank, inner?_anyObject]
    exact .none
  · have hkeys := (Json.distinct_dict.1 hdistinct).1
    exact rel_bind (rel_lookup_keyword hkeys hfields place) fun v _ w hmade => rel_within? hmade

/-- What stands at a position of a schema is translated where it stands. -/
theorem rel_at? {schema out : Value} (hdistinct : Json.distinct schema = true)
    (h : Translated schema out) (way : List Place) :
    Option.Rel Translated (at? schema way) (at? out way) := by
  induction way generalizing schema out with
  | nil => exact .some h
  | cons place way ih =>
    refine rel_bind (rel_inner? hdistinct h place) fun v hv w hvw => ?_
    exact ih (Json.hereditary_distinct.inner? hv hdistinct) hvw

/-- A schema that cannot be translated has something at a position that is no schema, and the fault
is the one with which that thing is taken for one. -/
theorem exists_position_of_error {schema : Value} {fault : Fault}
    (hdistinct : Json.distinct schema = true) (h : geminiSchema schema = .error fault) :
    ∃ way v, at? schema way = some v ∧ ¬IsSchema v ∧
      (v.callMissing "items" : Outcome Value) = .error fault := by
  -- what stands at a place is smaller than the schema, so the induction is on the size
  induction hsize : sizeOf schema using Nat.strong_induction_on generalizing schema with
  | _ size ih =>
    rcases error_cases h with ⟨hno, hfault⟩ | ⟨fields, rfl, hfields⟩
    · exact ⟨[], schema, rfl, hno, hfault⟩
    · rcases Json.distinct_dict.1 hdistinct with ⟨hkeys, hinside⟩
      rcases exists_field_of_error hfields with ⟨⟨key, v⟩, hmem, hkeyword⟩
      rcases exists_place_of_error (hinside _ hmem) hkeyword with ⟨place, w, rfl, hw, hfault⟩
      have hplace : inner? (.dict fields) place = some w :=
        inner?_eq_some_iff.2 ⟨fields, v, rfl, Fields.lookup_of_mem hkeys hmem, hw⟩
      have hsmaller : sizeOf w < size := hsize ▸ sizeOf_inner? hplace
      have hinner : Json.distinct w = true := Json.hereditary_distinct.inner? hplace hdistinct
      rcases ih (sizeOf w) hsmaller hinner hfault rfl with ⟨way, x, hx, hno, hx_fault⟩
      refine ⟨place :: way, x, ?_, hno, hx_fault⟩
      rw [at?, hplace]
      exact hx

def SchemasThroughout (schema : Value) : Prop :=
  ∀ way v, at? schema way = some v → IsSchema v

/-- A schema can be translated exactly if there is a schema at each of its positions. -/
theorem exists_translated_iff {schema : Value} (hdistinct : Json.distinct schema = true) :
    (∃ out, geminiSchema schema = .ok out) ↔ SchemasThroughout schema := by
  constructor
  · rintro ⟨out, hout⟩ way v hv
    have hrel := rel_at? hdistinct hout way
    rw [hv] at hrel
    rcases exists_of_rel_some hrel with ⟨w, -, hvw⟩
    exact Translated.isSchema hvw
  · intro hschemas
    cases h : geminiSchema schema with
    | ok out => exact ⟨out, rfl⟩
    | error fault =>
      rcases exists_position_of_error hdistinct h with ⟨way, v, hv, hno, -⟩
      exact absurd (hschemas way v hv) hno

/-- What the dialect has in place of a schema: an object of which nothing is said if the schema says
nothing, else what the fields of the schema are rewritten to. -/
inductive Rewritten : Value → Value → Prop where
  | blank {v : Value} (nothing : v.truthy = false) : Rewritten v anyObject
  | filled {fields out : Fields} (something : fields ≠ []) (rewrites : Rewrites fields out) :
      Rewritten (.dict fields) (.dict out)

/-- A translation rewrites its schema. -/
theorem Translated.rewritten {v w : Value} (hdistinct : Json.distinct v = true)
    (h : Translated v w) : Rewritten v w := by
  rcases translated_cases h with ⟨hblank, rfl⟩ | ⟨fields, out, rfl, hne, hfields, rfl⟩
  · exact .blank hblank
  · exact .filled hne (rewrites_of_geminiFields (Json.distinct_dict.1 hdistinct).1 hfields)

/-- A schema whose positions hold schemas has a translation with the same positions, and at each of
them stands what the dialect has in place of the schema that stands there. -/
theorem rewritten_at_positions {schema : Value} (hdistinct : Json.distinct schema = true)
    (hschemas : SchemasThroughout schema) :
    ∃ out, geminiSchema schema = .ok out ∧
      ∀ way, Option.Rel Rewritten (at? schema way) (at? out way) := by
  rcases (exists_translated_iff hdistinct).2 hschemas with ⟨out, hout⟩
  refine ⟨out, hout, fun way => rel_imp (rel_at? hdistinct hout way) fun v hv w hvw => ?_⟩
  exact Translated.rewritten (Json.hereditary_distinct.at? hv hdistinct) hvw

/-- A schema with properties that are called like keywords, one of them without a schema, a list of
types with null in it, and a combinator in the schema of a list's items. -/
def bookingSchema : Value :=
  .dict [("$schema", .str "draft-07"), ("type", .str "Object"),
    ("properties", .dict [
      ("type", .dict [("type", .list [.str "null", .str "string"]),
        ("default", .dict [("type", .str "string")])]),
      ("$id", .null),
      ("seats", .dict [("type", .str "array"), ("items", .dict [
        ("anyOf", .list [.dict [("type", .str "integer")], .dict []])])])]),
    ("required", .list [.str "type"])]

/-- A schema with a property named like a keyword, a nullable type and a combination is rewritten at
each of its positions. -/
theorem rewritten_at_positions_booking :
    Json.distinct bookingSchema = true ∧ SchemasThroughout bookingSchema ∧
      ∃ out, geminiSchema bookingSchema = .ok out ∧
        ∀ way, Option.Rel Rewritten (at? bookingSchema way) (at? out way) := by
  have hdistinct : Json.distinct bookingSchema = true := by decide +kernel
  have hok : (geminiSchema bookingSchema).isOk = true := by decide +kernel
  have hschemas := (exists_translated_iff hdistinct).1 (Outcome.of_isOk hok)
  exact ⟨hdistinct, hschemas, rewritten_at_positions hdistinct hschemas⟩

end Tool

end Parley
