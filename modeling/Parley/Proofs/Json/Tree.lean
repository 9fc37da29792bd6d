import Parley.Proofs.Json.NumberText
import Parley.Proofs.Number.Rounding

/-!
# Trees of values

A value that interchange text can say is a `Tree`:

* `writable`: there is no object in the value, for an object has no text, and no integer with too
  many digits;
* `distinct`: no dictionary holds a key twice, for the reader keeps the last one only;
* `plain`: no floating-point number in it is a NaN other than the one that has a text.

Main statement: `tree_of_read`, what the reader gives is a tree, whatever the text.
-/

namespace Parley.Json

/-! ## Trees -/

mutual

/-- Whether a test holds of a value and of everything inside it. -/
def everywhere (test : Value → Bool) : Value → Bool
  | .list items => test (.list items) && everywhereItems test items
  | .dict fields => test (.dict fields) && everywhereFields test fields
  | v => test v

/-- Whether a test holds of all items and of everything inside them. -/
def everywhereItems (test : Value → Bool) : List Value → Bool
  | [] => true
  | v :: rest => everywhere test v && everywhereItems test rest

/-- Whether a test holds of all field values and of everything inside them. -/
def everywhereFields (test : Value → Bool) : List (String × Value) → Bool
  | [] => true
  | (_, v) :: rest => everywhere test v && everywhereFields test rest

end

/-- Whether no dictionary inside a value holds a key twice. -/
def distinct : Value → Bool :=
  everywhere fun
    | .dict fields => decide (fields.map Prod.fst).Nodup
    | _ => true

/-- Whether every floating-point number inside a value has a text of its own. -/
def plain : Value → Bool :=
  everywhere fun
    | .float x => x.plain
    | _ => true

/-- A value as interchange text can say it: no objects, no integers with too many digits, no key
twice in a dictionary, and no NaN but the plain one. -/
structure Tree (v : Value) : Prop where
  writable : writable v = true
  distinct : distinct v = true
  plain : plain v = true

/-- A value can be written exactly if nothing in it stands in the way. -/
theorem obstacle?_eq_none_iff {v : Value} : obstacle? v = none ↔ writable v = true := by
  rw [writable, Option.isNone_iff_eq_none]

/-- A list can be written if all of its members can. -/
theorem writable_list {items : List Value} :
    writable (.list items) = true ↔ ∀ v ∈ items, writable v = true := by
  rw [← obstacle?_eq_none_iff, obstacle?]
  induction items with
  | nil => simp [obstacleItems?]
  | cons v rest ih =>
    rw [List.forall_mem_cons, ← ih, obstacleItems?, Option.or_eq_none_iff, obstacle?_eq_none_iff]

/-- A dictionary can be written if all of its values can. -/
theorem writable_dict {fields : Fields} :
    writable (.dict fields) = true ↔ ∀ f ∈ fields, writable f.2 = true := by
  rw [← obstacle?_eq_none_iff, obstacle?]
  induction fields with
  | nil => simp [obstacleFields?]
  | cons f rest ih =>
    obtain ⟨k, v⟩ := f
    rw [List.forall_mem_cons, ← ih, obstacleFields?, Option.or_eq_none_iff, obstacle?_eq_none_iff]

theorem writable_int {n : Int} : writable (.int n) = true ↔ Number.isShort n = true := by
  cases h : Number.isShort n <;> simp [writable, obstacle?, h]

theorem everywhereItems_iff {test : Value → Bool} {items : List Value} :
    everywhereItems test items = true ↔ ∀ v ∈ items, everywhere test v = true := by
  induction items with
  | nil => simp [everywhereItems]
  | cons v rest ih => simp [everywhereItems, ih]

theorem everywhereFields_iff {test : Value → Bool} {fields : Fields} :
    everywhereFields test fields = true ↔ ∀ f ∈ fields, everywhere test f.2 = true := by
  induction fields with
  | nil => simp [everywhereFields]
  | cons f rest ih =>
    obtain ⟨k, v⟩ := f
    simp [everywhereFields, ih]

/-- No key stands twice in a list if none does in its members. -/
theorem distinct_list {items : List Value} :
    distinct (.list items) = true ↔ ∀ v ∈ items, distinct v = true := by
  simp [distinct, everywhere, everywhereItems_iff]

/-- No key stands twice in a dictionary if its own are distinct and none does in its values. -/
theorem distinct_dict {fields : Fields} :
    distinct (.dict fields) = true ↔
      (fields.map Prod.fst).Nodup ∧ ∀ f ∈ fields, distinct f.2 = true := by
  simp [distinct, everywhere, everywhereFields_iff]

theorem plain_list {items : List Value} :
    plain (.list items) = true ↔ ∀ v ∈ items, plain v = true := by
  simp [plain, everywhere, everywhereItems_iff]

theorem plain_dict {fields : Fields} :
    plain (.dict fields) = true ↔ ∀ f ∈ fields, plain f.2 = true := by
  simp [plain, everywhere, everywhereFields_iff]

/-- A list can be said if all of its members can. -/
theorem tree_list {items : List Value} : Tree (.list items) ↔ ∀ v ∈ items, Tree v := by
  constructor
  · rintro ⟨hw, hd, hp⟩ v hv
    exact ⟨writable_list.1 hw v hv, distinct_list.1 hd v hv, plain_list.1 hp v hv⟩
  · intro h
    exact ⟨writable_list.2 fun v hv => (h v hv).writable,
      distinct_list.2 fun v hv => (h v hv).distinct, plain_list.2 fun v hv => (h v hv).plain⟩

/-- A dictionary can be said if all of its values can, and its keys are distinct. -/
theorem tree_dict {fields : Fields} :
    Tree (.dict fields) ↔ (fields.map Prod.fst).Nodup ∧ ∀ f ∈ fields, Tree f.2 := by
  constructor
  · rintro ⟨hw, hd, hp⟩
    rcases distinct_dict.1 hd with ⟨hkeys, hd⟩
    refine ⟨hkeys, ?_⟩
    intro f hf
    exact ⟨writable_dict.1 hw f hf, hd f hf, plain_dict.1 hp f hf⟩
  · rintro ⟨hkeys, h⟩
    exact ⟨writable_dict.2 fun f hf => (h f hf).writable,
      distinct_dict.2 ⟨hkeys, fun f hf => (h f hf).distinct⟩,
      plain_dict.2 fun f hf => (h f hf).plain⟩

/-! ## The reader gives trees -/

/-- A new key is put behind the others. -/
theorem put_of_not_mem {fields : Fields} {key : String} (v : Value)
    (h : key ∉ fields.map Prod.fst) : Fields.put fields key v = fields ++ [(key, v)] := by
  induction fields with
  | nil => rfl
  | cons f rest ih =>
    obtain ⟨k, w⟩ := f
    simp only [List.map_cons, List.mem_cons, not_or] at h
    simp [Fields.put, Ne.symm h.1, ih h.2]

theorem map_fst_put_of_mem {fields : Fields} {key : String} (v : Value)
    (h : key ∈ fields.map Prod.fst) :
    (Fields.put fields key v).map Prod.fst = fields.map Prod.fst := by
  induction fields with
  | nil => cases h
  | cons f rest ih =>
    obtain ⟨k, w⟩ := f
    by_cases hk : k = key
    · simp [Fields.put, hk]
    · have hmem : key ∈ rest.map Prod.fst := by
        rcases List.mem_cons.1 h with heq | hmem
        · exact absurd heq.symm hk
        · exact hmem
      simp [Fields.put, hk, ih hmem]

/-- Putting a field keeps the keys distinct. -/
theorem nodup_put {fields : Fields} {key : String} (v : Value)
    (h : (fields.map Prod.fst).Nodup) : ((Fields.put fields key v).map Prod.fst).Nodup := by
  -- a key that is there keeps its place
  by_cases hk : key ∈ fields.map Prod.fst
  · rw [map_fst_put_of_mem v hk]
    exact h
  · rw [put_of_not_mem v hk, List.map_append, List.nodup_append]
    refine ⟨h, by simp, ?_⟩
    intro a ha b hb
    have hb : b = key := by simpa using hb
    rintro rfl
    exact hk (hb ▸ ha)

/-- What holds of all values still does after a field is put, if it holds of the new value. -/
theorem forall_put {P : Value → Prop} {fields : Fields} {key : String} {v : Value}
    (h : ∀ f ∈ fields, P f.2) (hv : P v) : ∀ f ∈ Fields.put fields key v, P f.2 := by
  induction fields with
  | nil => simpa [Fields.put] using hv
  | cons f rest ih =>
    obtain ⟨k, w⟩ := f
    by_cases hk : k = key
    · simp only [Fields.put, hk, if_true]
      intro g hg
      rcases List.mem_cons.1 hg with rfl | hg
      · exact hv
      · exact h g (List.mem_cons_of_mem _ hg)
    · simp only [Fields.put, hk, if_false]
      intro g hg
      rcases List.mem_cons.1 hg with rfl | hg
      · exact h (k, w) List.mem_cons_self
      · exact ih (fun x hx => h x (List.mem_cons_of_mem _ hx)) g hg

/-- Fields that are put one after the other can be said if their values can. -/
theorem tree_foldl_put {members before : Fields} (hm : ∀ m ∈ members, Tree m.2)
    (hb : Tree (.dict before)) :
    Tree (.dict (members.foldl (fun fs m => Fields.put fs m.1 m.2) before)) := by
  induction members generalizing before with
  | nil => exact hb
  | cons m rest ih =>
    obtain ⟨hkeys, hall⟩ := tree_dict.1 hb
    refine ih (fun x hx => hm x (List.mem_cons_of_mem m hx)) (tree_dict.2 ⟨nodup_put m.2 hkeys, ?_⟩)
    exact forall_put hall (hm m List.mem_cons_self)

theorem tree_fieldsOf {members : Fields} (h : ∀ m ∈ members, Tree m.2) :
    Tree (.dict (fieldsOf members)) :=
  tree_foldl_put h (tree_dict.2 ⟨by simp, by simp⟩)

/-- What the reader gives, if anything, has a property. -/
def Gives {α : Type} (P : α → Prop) (r : Except Failure (α × List Char)) : Prop :=
  ∀ x rest, r = .ok (x, rest) → P x

namespace Gives

variable {α β : Type} {P : α → Prop} {Q : β → Prop}

theorem error (f : Failure) : Gives P (.error f) := by
  intro x rest h
  cases h

theorem ok {x : α} {rest : List Char} (h : P x) : Gives P (.ok (x, rest)) := by
  intro y r hr
  cases hr
  exact h

/-- What is read in two steps has the property that the second step gives. -/
theorem bind {r : Except Failure (α × List Char)}
    {next : α × List Char → Except Failure (β × List Char)} (h : Gives P r)
    (hnext : ∀ x rest, P x → Gives Q (next (x, rest))) : Gives Q (r >>= next) := by
  cases r with
  | error f => exact error f
  | ok p => exact hnext p.1 p.2 (h p.1 p.2 rfl)

theorem bind_any {r : Except Failure (α × List Char)}
    {next : α × List Char → Except Failure (β × List Char)}
    (hnext : ∀ x rest, Gives Q (next (x, rest))) : Gives Q (r >>= next) :=
  bind (P := fun _ => True) (fun _ _ _ => trivial) fun x rest _ => hnext x rest

end Gives

/-- A number that is read can be said, unless it has too many digits. -/
theorem tree_of_readMagnitude {negative : Bool} {cs rest : List Char} {v : Value}
    (h : readMagnitude? negative cs = some (v, rest)) (hshort : isTooLong v = false) :
    Tree v := by
  rcases hw : readWhole cs with ⟨whole, r₁⟩
  rcases hp : readPlaces r₁ with ⟨places, r₂⟩
  rcases he : readExponent r₂ with ⟨exponent, r₃⟩
  simp only [readMagnitude?, hw, hp, he] at h
  split at h
  · cases h
  · split at h
    · cases h
      exact ⟨writable_int.2 (by simpa [isTooLong] using hshort), rfl, rfl⟩
    · cases h
      exact ⟨rfl, rfl, Double.plain_ofScientific _ _ _⟩

/-- Every scalar that is read can be said. -/
theorem readScalar_gives (cs : List Char) : Gives Tree (readScalar cs) := by
  fun_cases readScalar cs with
  | case1 word v h =>
    have hmem := List.mem_of_find?_eq_some h
    simp only [words, List.mem_cons, Prod.mk.injEq, List.not_mem_nil, or_false] at hmem
    refine .ok ?_
    rcases hmem with ⟨-, rfl⟩ | ⟨-, rfl⟩ | ⟨-, rfl⟩ | ⟨-, rfl⟩ | ⟨-, rfl⟩ | ⟨-, rfl⟩ <;>
      exact ⟨rfl, rfl, rfl⟩
  | case2 => exact .error _
  | case3 h v rest hr hshort =>
    have hshort : isTooLong v = false := by simpa using hshort
    refine .ok ?_
    unfold readNumber? at hr
    split at hr <;> exact tree_of_readMagnitude hr hshort
  | case4 => exact .error _

theorem reader_gives (depth : Nat) :
    (∀ cs, Gives Tree (readValue depth cs)) ∧
    (∀ cs, Gives (fun vs => ∀ v ∈ vs, Tree v) (readItems depth cs)) ∧
    (∀ cs, Gives (fun ms => ∀ m ∈ ms, Tree m.2) (readMembers depth cs)) := by
  -- every call inside goes one level deeper, so the induction is on the depth that is left
  induction depth with
  | zero =>
    refine ⟨fun cs => ?_, fun cs => ?_, fun cs => ?_⟩
    · rw [readValue]; exact .error _
    · rw [readItems]; exact .error _
    · rw [readMembers]; exact .error _
  | succ depth ih =>
    obtain ⟨hvalue, hitems, hmembers⟩ := ih
    refine ⟨fun cs => ?_, fun cs => ?_, fun cs => ?_⟩
    · rw [readValue.eq_def]
      dsimp only
      split
      · exact .bind_any fun s r => .ok ⟨rfl, rfl, rfl⟩
      · split
        · exact .ok (tree_list.2 (by simp))
        · exact (hitems _).bind fun vs r hvs => .ok (tree_list.2 hvs)
      · split
        · exact .ok (tree_dict.2 (by simp))
        · exact (hmembers _).bind fun ms r hms => .ok (tree_fieldsOf hms)
      · exact readScalar_gives _
    · rw [readItems]
      refine (hvalue cs).bind fun v r hv => ?_
      dsimp only
      split
      · exact .ok (by simpa using hv)
      · exact (hitems _).bind fun vs r' hvs => .ok (List.forall_mem_cons.2 ⟨hv, hvs⟩)
      · exact .error _
    · rw [readMembers.eq_def]
      dsimp only
      split
      · refine .bind_any fun key r₁ => ?_
        dsimp only
        split
        · refine (hvalue _).bind fun v r₃ hv => ?_
          dsimp only
          split
          · exact .ok (by simpa using hv)
          · exact (hmembers _).bind fun ms r₅ hms => .ok (List.forall_mem_cons.2 ⟨hv, hms⟩)
          · exact .error _
        · exact .error _
      · exact .error _

/-- What a text is read as is a tree. -/
theorem tree_of_read {text : String} {v : Value} (h : read text = .ok v) : Tree v := by
  unfold read at h
  cases ht : readText text.toList with
  | error f =>
    rw [ht] at h
    cases h
  | ok w =>
    rw [ht] at h
    cases h
    unfold readText at ht
    split at ht
    · cases ht
    · cases hr : readValue (depthOf (skip text.toList)) (skip text.toList) with
      | error f =>
        rw [hr] at ht
        cases ht
      | ok p =>
        -- what follows the value decides only whether it is given
        have htree := (reader_gives _).1 _ p.1 p.2 hr
        rw [hr] at ht
        simp only [bind, Except.bind] at ht
        split at ht
        · cases ht
          exact htree
        · cases ht

end Parley.Json
