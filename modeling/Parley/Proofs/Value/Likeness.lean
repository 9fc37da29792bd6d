import Mathlib.Data.List.Pairwise
import Parley.Proofs.Outcome
import Parley.Proofs.Value.Reading

/-!
# Values that differ in representation

A vendor's data may come as plain dictionaries or as the objects of a client library, and some of
its fields under either of two spellings. This file relates values that differ in nothing else, node
by node, and shows that what is read of the one is related to what is read of the other.

* `Likeness`: a relation between values that keeps apart what is null;
* `Likeness.list`, `Likeness.node`: the likeness of lists and of nodes, whose fields are looked up
  by name;
* `Likeness.field_of_node`, `Likeness.field_eq_of_node`: reading a field of alike nodes;
* `Outcome.Alike`: outcomes that are the same fault or alike results.
-/

namespace Parley

/-! ## Outcomes -/

namespace Outcome

variable {α β γ : Type} {relation : α → β → Prop}

/-- The same fault, or related results. -/
inductive Alike (relation : α → β → Prop) : Outcome α → Outcome β → Prop where
  | ok {a : α} {b : β} (related : relation a b) : Alike relation (.ok a) (.ok b)
  | error (fault : Fault) : Alike relation (.error fault) (.error fault)

/-- Outcomes that are alike go on alike. -/
theorem Alike.bind_eq {x : Outcome α} {y : Outcome β} (h : Alike relation x y)
    {f : α → Outcome γ} {g : β → Outcome γ} (hfg : ∀ a b, relation a b → f a = g b) :
    x >>= f = y >>= g := by
  cases h with
  | ok related => exact hfg _ _ related
  | error fault => rfl

/-- Lists that are alike are mapped alike. -/
theorem mapM_eq_mapM {f : α → Outcome γ} {g : β → Outcome γ} {xs : List α} {ys : List β}
    (h : List.Forall₂ relation xs ys) (hfg : ∀ x y, relation x y → f x = g y) :
    xs.mapM f = ys.mapM g := by
  induction h with
  | nil => rfl
  | cons hxy _ ih => rw [List.mapM_cons, List.mapM_cons, hfg _ _ hxy, ih]

end Outcome

/-! ## Likenesses -/

/-- A relation between values that differ in representation only. It keeps apart what is null. -/
structure Likeness where
  Rel : Value → Value → Prop
  refl : ∀ v, Rel v v
  isNull_eq : ∀ {v w}, Rel v w → v.isNull = w.isNull

namespace Value

/-- The fields of a node: the entries of a dictionary or the attributes of a vendor's object. -/
def node? : Value → Option Fields
  | .dict fields => some fields
  | .object .vendor fields => some fields
  | _ => none

/-- What a node holds is found by name. -/
theorem part?_of_node {v : Value} {fields : Fields} (h : v.node? = some fields) (name : String) :
    v.part? name = fields.lookup name := by
  cases v with
  | dict entries =>
    cases h
    rfl
  | object kind attributes =>
    cases kind <;> cases h
    exact Option.or_none
  | _ => cases h

theorem not_isNull_of_node {v : Value} {fields : Fields} (h : v.node? = some fields) :
    v.isNull = false := by
  cases v with
  | null => cases h
  | _ => rfl

end Value

namespace Likeness

def same : Likeness where
  Rel := Eq
  refl _ := rfl
  isNull_eq h := congrArg Value.isNull h

def list (item : Likeness) : Likeness where
  Rel v w := v = w ∨ ∃ vs ws, v = .list vs ∧ w = .list ws ∧ List.Forall₂ item.Rel vs ws
  refl _ := .inl rfl
  isNull_eq := by
    rintro v w (rfl | ⟨vs, ws, rfl, rfl, -⟩) <;> rfl

/-- A place in a node: the spellings of its name, and the likeness of what stands there. -/
structure Slot where
  spellings : List String
  content : Likeness

/-- The places in a node whose contents need not be the same. No name spells two of them. -/
structure Layout where
  slots : List Slot
  separate : slots.Pairwise fun s t => ∀ name ∈ s.spellings, name ∉ t.spellings

namespace Layout

/-- A name is a spelling of one slot only. -/
theorem eq_of_mem_spellings {layout : Layout} {s t : Slot} {name : String}
    (hs : s ∈ layout.slots) (ht : t ∈ layout.slots) (hname : name ∈ s.spellings)
    (hother : name ∈ t.spellings) : s = t := by
  by_contra hne
  have hsymm : Std.Symm fun s t : Slot => ∀ name ∈ s.spellings, name ∉ t.spellings :=
    ⟨fun s t h name ht hs => h name hs ht⟩
  exact layout.separate.forall hs ht hne name hname hother

/-- Alike fields: the same, or two spellings of one place with alike contents. -/
def FieldLike (layout : Layout) (f g : String × Value) : Prop :=
  f = g ∨ ∃ slot ∈ layout.slots, f.1 ∈ slot.spellings ∧ g.1 ∈ slot.spellings ∧
    slot.content.Rel f.2 g.2

def Uniform (names : List String) (fields : Fields) : Prop :=
  ∀ f ∈ fields, ∀ g ∈ fields, f.1 ∈ names → g.1 ∈ names → f.1 = g.1

def Unmixed (layout : Layout) (fields : Fields) : Prop :=
  ∀ slot ∈ layout.slots, Uniform slot.spellings fields

instance (names : List String) (fields : Fields) : Decidable (Uniform names fields) :=
  inferInstanceAs (Decidable (∀ f ∈ fields, ∀ g ∈ fields, f.1 ∈ names → g.1 ∈ names → f.1 = g.1))

instance (layout : Layout) (fields : Fields) : Decidable (layout.Unmixed fields) :=
  inferInstanceAs (Decidable (∀ slot ∈ layout.slots, Uniform slot.spellings fields))

end Layout

/-- Nodes with alike fields in the same order, in whichever representation, neither of which mixes
spellings. -/
def node (layout : Layout) : Likeness where
  Rel v w := v = w ∨ ∃ fs gs, v.node? = some fs ∧ w.node? = some gs ∧ layout.Unmixed fs ∧
    layout.Unmixed gs ∧ List.Forall₂ layout.FieldLike fs gs
  refl _ := .inl rfl
  isNull_eq := by
    rintro v w (rfl | ⟨fs, gs, hv, hw, -, -, -⟩)
    · rfl
    · rw [Value.not_isNull_of_node hv, Value.not_isNull_of_node hw]

/-- Nodes are alike if their fields are, one by one. -/
theorem rel_of_fields {layout : Layout} {v w : Value} {fs gs : Fields} (hv : v.node? = some fs)
    (hw : w.node? = some gs) (hfs : layout.Unmixed fs) (hgs : layout.Unmixed gs)
    (h : List.Forall₂ layout.FieldLike fs gs) : (node layout).Rel v w :=
  .inr ⟨fs, gs, hv, hw, hfs, hgs, h⟩

/-- A field is alike under all spellings of its slot. -/
theorem fieldLike_of_slot {layout : Layout} {slot : Slot} {key other : String} {v w : Value}
    (hslot : slot ∈ layout.slots) (hkey : key ∈ slot.spellings) (hother : other ∈ slot.spellings)
    (h : slot.content.Rel v w) : layout.FieldLike (key, v) (other, w) :=
  .inr ⟨slot, hslot, hkey, hother, h⟩

def record : Likeness :=
  node ⟨[], .nil⟩

/-! ## Reading a field -/

theorem findSome?_congr {α β : Type} {f g : α → Option β} {xs : List α}
    (h : ∀ x ∈ xs, f x = g x) : xs.findSome? f = xs.findSome? g := by
  induction xs with
  | nil => rfl
  | cons x rest ih =>
    rw [List.findSome?_cons, List.findSome?_cons, h x (by simp),
      ih fun y hy => h y (by simp [hy])]

theorem findSome?_single {β : Type} {key : String} {names : List String} (found : Option β)
    (h : key ∈ names) :
    (names.findSome? fun name => if name = key then found else none) = found := by
  cases found with
  | none => simp
  | some b =>
    induction names with
    | nil => cases h
    | cons name rest ih =>
      by_cases hname : name = key
      · simp [hname]
      · rw [List.findSome?_cons, if_neg hname]
        exact ih ((List.mem_cons.1 h).resolve_left (Ne.symm hname))

/-- Where fields use a single name out of some, what is found under the names is the first field of
that name, unless it is null. -/
theorem findSome?_of_uniform {names : List String} {fields : Fields}
    (h : Layout.Uniform names fields) :
    (names.findSome? fun name => (fields.lookup name).filter fun v => !v.isNull) =
      ((fields.find? fun f => decide (f.1 ∈ names)).map Prod.snd).filter fun v => !v.isNull := by
  induction fields with
  | nil => simp
  | cons f rest ih =>
    obtain ⟨key, v⟩ := f
    have hlookup : ∀ name, List.lookup name ((key, v) :: rest) =
        if name = key then some v else List.lookup name rest := by
      intro name
      by_cases hname : name = key
      · simp [hname]
      · have hne : (name == key) = false := by simpa using hname
        simp [List.lookup_cons, hname, hne]
    by_cases hkey : key ∈ names
    · -- a field under another of the names would be a second name in use
      have hfirst : ∀ name ∈ names,
          (List.lookup name ((key, v) :: rest)).filter (fun v => !v.isNull) =
            if name = key then (some v).filter (fun v => !v.isNull) else none := by
        intro name hname
        rw [hlookup]
        split
        · rfl
        · rename_i hne
          have hmiss : List.lookup name rest = none := by
            apply Fields.lookup_of_not_mem
            intro hmem
            rcases List.mem_map.1 hmem with ⟨g, hg, rfl⟩
            exact hne (h g (List.mem_cons_of_mem _ hg) (key, v) List.mem_cons_self hname hkey)
          rw [hmiss]
          rfl
      rw [findSome?_congr hfirst, findSome?_single _ hkey]
      simp [hkey]
    · have hrest : ∀ name ∈ names,
          (List.lookup name ((key, v) :: rest)).filter (fun v => !v.isNull) =
            (List.lookup name rest).filter fun v => !v.isNull := by
        intro name hname
        rw [hlookup, if_neg]
        rintro rfl
        exact hkey hname
      rw [findSome?_congr hrest, ih fun f hf g hg =>
        h f (List.mem_cons_of_mem _ hf) g (List.mem_cons_of_mem _ hg)]
      simp [hkey]

/-- A field of a node whose fields use a single one of its spellings. -/
theorem field_of_uniform {v : Value} {fields : Fields} {names : List String}
    (hnode : v.node? = some fields) (h : Layout.Uniform names fields) (default : Value) :
    v.field names default =
      (((fields.find? fun f => decide (f.1 ∈ names)).map Prod.snd).filter
        fun v => !v.isNull).getD default := by
  rw [Value.field, ← findSome?_of_uniform h]
  simp only [Value.part?_of_node hnode]

/-- What is found first in related lists is related. -/
theorem find?_of_forall₂ {α β : Type} {relation : α → β → Prop} {xs : List α} {ys : List β}
    {p : α → Bool} {q : β → Bool} (h : List.Forall₂ relation xs ys)
    (hpq : ∀ x y, relation x y → p x = q y) :
    (xs.find? p = none ∧ ys.find? q = none) ∨
      ∃ x y, xs.find? p = some x ∧ ys.find? q = some y ∧ relation x y ∧ p x = true := by
  induction h with
  | nil => exact .inl ⟨rfl, rfl⟩
  | @cons x y xs ys hxy _ ih =>
    have hsame := hpq x y hxy
    cases hx : p x with
    | true =>
      rw [hx] at hsame
      exact .inr ⟨x, y, by simp [hx], by simp [← hsame], hxy, hx⟩
    | false =>
      rw [hx] at hsame
      simpa [List.find?_cons, hx, ← hsame] using ih

/-- Fields that a layout relates agree about some names, and where they have one of them they hold
alike values. -/
def Keeps (layout : Layout) (names : List String) (content : Likeness) : Prop :=
  ∀ f g, layout.FieldLike f g →
    (f.1 ∈ names ↔ g.1 ∈ names) ∧ (f.1 ∈ names → content.Rel f.2 g.2)

/-- A field that a layout keeps is read alike from nodes that are alike. -/
theorem rel_field {layout : Layout} {names : List String} {content : Likeness} {v w : Value}
    (hkeeps : Keeps layout names content)
    (huniform : ∀ fields, layout.Unmixed fields → Layout.Uniform names fields)
    (h : (node layout).Rel v w) (default : Value) :
    content.Rel (v.field names default) (w.field names default) := by
  rcases h with rfl | ⟨fs, gs, hv, hw, hfs, hgs, hfields⟩
  · exact content.refl _
  rw [field_of_uniform hv (huniform fs hfs), field_of_uniform hw (huniform gs hgs)]
  have hsame : ∀ f g, layout.FieldLike f g → decide (f.1 ∈ names) = decide (g.1 ∈ names) :=
    fun f g hfg => decide_eq_decide.2 (hkeeps f g hfg).1
  rcases find?_of_forall₂ hfields hsame with ⟨hf, hg⟩ | ⟨f, g, hf, hg, hfg, hname⟩
  · rw [hf, hg]
    exact content.refl default
  · rw [hf, hg]
    have hrel := (hkeeps f g hfg).2 (of_decide_eq_true hname)
    have hnull := content.isNull_eq hrel
    cases hfnull : f.2.isNull with
    | true =>
      rw [hfnull] at hnull
      simpa [Option.filter, hfnull, ← hnull] using content.refl default
    | false =>
      rw [hfnull] at hnull
      simpa [Option.filter, hfnull, ← hnull] using hrel

/-- What stands in a place of alike nodes is alike. -/
theorem field_of_node {layout : Layout} {slot : Slot} {v w : Value} (hslot : slot ∈ layout.slots)
    (h : (node layout).Rel v w) (default : Value) :
    slot.content.Rel (v.field slot.spellings default) (w.field slot.spellings default) := by
  refine rel_field ?_ (fun fields hfields => hfields slot hslot) h default
  rintro f g (rfl | ⟨other, hother, hf, hg, hcontent⟩)
  · exact ⟨Iff.rfl, fun _ => slot.content.refl _⟩
  · by_cases hmem : f.1 ∈ slot.spellings
    · cases Layout.eq_of_mem_spellings hslot hother hmem hf
      exact ⟨iff_of_true hf hg, fun _ => hcontent⟩
    · have hmiss : g.1 ∉ slot.spellings := by
        intro hmem'
        cases Layout.eq_of_mem_spellings hslot hother hmem' hg
        exact hmem hf
      exact ⟨iff_of_false hmem hmiss, fun hin => absurd hin hmem⟩

/-- A field that is no place of a layout is the same in alike nodes. -/
theorem field_eq_of_node {layout : Layout} {name : String} {v w : Value}
    (hname : ∀ slot ∈ layout.slots, name ∉ slot.spellings) (h : (node layout).Rel v w)
    (default : Value) : v.field [name] default = w.field [name] default := by
  have hkeeps : Keeps layout [name] same := by
    rintro f g (rfl | ⟨slot, hslot, hf, hg, -⟩)
    · exact ⟨Iff.rfl, fun _ => rfl⟩
    · have hmiss : ∀ {key : String}, key ∈ slot.spellings → key ∉ [name] := by
        intro key hkey hmem
        cases List.mem_singleton.1 hmem
        exact hname slot hslot hkey
      exact ⟨iff_of_false (hmiss hf) (hmiss hg), fun hin => absurd hin (hmiss hf)⟩
  refine rel_field hkeeps ?_ h default
  intro fields _ f _ g _ hf hg
  rw [List.mem_singleton.1 hf, List.mem_singleton.1 hg]

/-- What is read of records that are alike is the same. -/
theorem field_eq_of_record {v w : Value} (h : record.Rel v w) (name : String) (default : Value) :
    v.field [name] default = w.field [name] default :=
  field_eq_of_node (by simp) h default

theorem read_eq_of_record {v w : Value} (h : record.Rel v w) (name : String) :
    v.read name = w.read name :=
  field_eq_of_record h name .null

/-! ## Lists -/

section List

variable {item : Likeness} {v w : Value}

theorem truthy_eq_of_list (h : (list item).Rel v w) : v.truthy = w.truthy := by
  rcases h with rfl | ⟨vs, ws, rfl, rfl, hitems⟩
  · rfl
  · cases hitems <;> rfl

/-- The items of lists that are alike are alike. -/
theorem items_of_list (h : (list item).Rel v w) :
    Outcome.Alike (List.Forall₂ item.Rel) v.items w.items := by
  rcases h with rfl | ⟨vs, ws, rfl, rfl, hitems⟩
  · cases v.items with
    | ok vs => exact .ok (List.forall₂_same.2 fun v _ => item.refl v)
    | error fault => exact .error fault
  · exact .ok hitems

theorem first_of_list (h : (list item).Rel v w) :
    Outcome.Alike item.Rel (v.item 0) (w.item 0) := by
  rcases h with rfl | ⟨vs, ws, rfl, rfl, hitems⟩
  · cases v.item 0 with
    | ok first => exact .ok (item.refl first)
    | error fault => exact .error fault
  · cases hitems with
    | nil => exact .error _
    | cons hfirst _ => exact .ok hfirst

end List

end Likeness

end Parley
