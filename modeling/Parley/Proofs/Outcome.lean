import Mathlib.Data.List.Forall2
import Parley.Fault

/-!
# Peeling outcomes apart

An operation made of several steps succeeds exactly if each of its steps does. These are the lemmas
by which later proofs take such an operation apart, one step at a time, without opening the
operations it is made of. A step for every item of a list relates two lists, item by item.
-/

namespace Parley

/-! ## Related lists -/

section Related

variable {α β γ : Type} {relation : α → β → Prop} {xs : List α} {ys : List β}

theorem isEmpty_of_forall₂ (h : List.Forall₂ relation xs ys) : xs.isEmpty = ys.isEmpty := by
  cases h <;> rfl

/-- In related lists every member is related to one. -/
theorem exists_of_mem_left (h : List.Forall₂ relation xs ys) {x : α} (hx : x ∈ xs) :
    ∃ y ∈ ys, relation x y := by
  induction h with
  | nil => cases hx
  | @cons first y rest ys hy _ ih =>
    rcases List.mem_cons.1 hx with rfl | hx
    · exact ⟨y, List.mem_cons_self, hy⟩
    · rcases ih hx with ⟨other, hother, hrelated⟩
      exact ⟨other, List.mem_cons_of_mem y hother, hrelated⟩

/-- A list is related to one that has something for each of its items. -/
theorem exists_forall₂ (h : ∀ x ∈ xs, ∃ y, relation x y) : ∃ ys, List.Forall₂ relation xs ys := by
  induction xs with
  | nil => exact ⟨[], .nil⟩
  | cons x rest ih =>
    rcases h x List.mem_cons_self with ⟨y, hy⟩
    rcases ih fun w hw => h w (List.mem_cons_of_mem x hw) with ⟨ys, hys⟩
    exact ⟨y :: ys, .cons hy hys⟩

/-- Related lists have the same image if related members do. -/
theorem map_eq_map_of_forall₂ {f : α → γ} {g : β → γ} (h : List.Forall₂ relation xs ys)
    (heq : ∀ x ∈ xs, ∀ y, relation x y → f x = g y) : xs.map f = ys.map g := by
  induction h with
  | nil => rfl
  | @cons x y xs ys hxy _ ih =>
    rw [List.map_cons, List.map_cons, heq x (by simp) y hxy,
      ih fun other hother => heq other (by simp [hother])]

/-- What holds of neighbours in one list holds in a form of those that they are related to. -/
theorem isChain_of_forall₂ {next : β → β → Prop} {before : α → α → Prop}
    (h : List.Forall₂ relation xs ys) (hchain : ys.IsChain next)
    (hstep : ∀ {x y x' y'}, relation x y → relation x' y' → next y y' → before x x') :
    xs.IsChain before := by
  induction h with
  | nil => exact .nil
  | cons hfirst hrest ih =>
    cases hrest with
    | nil => exact .singleton _
    | cons hsecond _ =>
      cases hchain with
      | cons_cons hnear hfar => exact .cons_cons (hstep hfirst hsecond hnear) (ih hfar)

/-- What is related to a list that ends in an item ends in an item that is related to it. -/
theorem exists_of_concat_left {x : α} (h : List.Forall₂ relation (xs ++ [x]) ys) :
    ∃ front y, ys = front ++ [y] ∧ List.Forall₂ relation xs front ∧ relation x y := by
  induction xs generalizing ys with
  | nil =>
    cases h with
    | cons hlast hnone =>
      cases hnone
      exact ⟨[], _, rfl, .nil, hlast⟩
  | cons first rest ih =>
    cases h with
    | cons hfirst hrest =>
      rcases ih hrest with ⟨front, y, rfl, hfront, hlast⟩
      exact ⟨_ :: front, y, rfl, .cons hfirst hfront, hlast⟩

/-- What there is between each two related items makes a list between the lists. -/
theorem exists_list_between {left : α → γ → Prop} {right : γ → β → Prop}
    (h : List.Forall₂ (fun x y => ∃ z, left x z ∧ right z y) xs ys) :
    ∃ zs, List.Forall₂ left xs zs ∧ List.Forall₂ right zs ys := by
  induction h with
  | nil => exact ⟨[], .nil, .nil⟩
  | cons hfirst _ ih =>
    rcases hfirst with ⟨z, hleft, hright⟩
    rcases ih with ⟨zs, hlefts, hrights⟩
    exact ⟨z :: zs, .cons hleft hlefts, .cons hright hrights⟩

/-- What stands at a place of one list is related to what stands there in the other. -/
theorem rel_getElem? (h : List.Forall₂ relation xs ys) (position : Nat) :
    Option.Rel relation xs[position]? ys[position]? := by
  induction h generalizing position with
  | nil => simp
  | cons hxy _ ih =>
    cases position with
    | zero => simpa using hxy
    | succ position => simpa using ih position

theorem exists_of_rel_some {x : α} {b : Option β} (h : Option.Rel relation (some x) b) :
    ∃ y, b = some y ∧ relation x y := by
  cases h with
  | some hxy => exact ⟨_, rfl, hxy⟩

/-- What is related by one relation is related by a wider one. -/
theorem rel_imp {other : α → β → Prop} {a : Option α} {b : Option β} (h : Option.Rel relation a b)
    (himp : ∀ x, a = some x → ∀ y, relation x y → other x y) : Option.Rel other a b := by
  cases h with
  | none => exact .none
  | some hxy => exact .some (himp _ rfl _ hxy)

/-- A further step from related results, if there are any, has related results. -/
theorem rel_bind {α' β' : Type} {further : α' → β' → Prop} {a : Option α} {b : Option β}
    {f : α → Option α'} {g : β → Option β'} (h : Option.Rel relation a b)
    (hstep : ∀ x, a = some x → ∀ y, relation x y → Option.Rel further (f x) (g y)) :
    Option.Rel further (a.bind f) (b.bind g) := by
  cases h with
  | none => exact .none
  | some hxy => exact hstep _ rfl _ hxy

end Related

namespace Outcome

variable {α β : Type}

/-! ## Steps that succeed -/

/-- Two steps succeed exactly if the first does, and the second does with what it gives. -/
theorem bind_eq_ok_iff {x : Outcome α} {f : α → Outcome β} {b : β} :
    x >>= f = .ok b ↔ ∃ a, x = .ok a ∧ f a = .ok b := by
  cases x with
  | error fault => simp [bind, Except.bind]
  | ok a => simp [bind, Except.bind]

theorem of_bind_eq_ok {x : Outcome α} {f : α → Outcome β} {b : β} (h : x >>= f = .ok b) :
    ∃ a, x = .ok a ∧ f a = .ok b :=
  bind_eq_ok_iff.1 h

/-- A step that succeeds hands on what it gives. -/
theorem bind_of_ok {x : Outcome α} {f : α → Outcome β} {a : α} (h : x = .ok a) :
    x >>= f = f a := by
  rw [h]
  rfl

/-- Two steps fail exactly if the first does, or the second does with what the first gives. -/
theorem bind_eq_error_iff {x : Outcome α} {f : α → Outcome β} {fault : Fault} :
    x >>= f = .error fault ↔ x = .error fault ∨ ∃ a, x = .ok a ∧ f a = .error fault := by
  cases x with
  | error other => simp [bind, Except.bind]
  | ok a => simp [bind, Except.bind]

theorem of_isOk {x : Outcome α} (h : x.isOk = true) : ∃ a, x = .ok a := by
  cases x with
  | error fault => cases h
  | ok a => exact ⟨a, rfl⟩

theorem ne_ok_of_isOk {x : Outcome α} (h : x.isOk = false) (a : α) : x ≠ .ok a := by
  rintro rfl
  cases h

/-- A list is mapped exactly if its members are, one by one. -/
theorem mapM_eq_ok_iff {f : α → Outcome β} {xs : List α} {ys : List β} :
    xs.mapM f = .ok ys ↔ List.Forall₂ (fun x y => f x = .ok y) xs ys := by
  induction xs generalizing ys with
  | nil =>
    rw [List.mapM_nil, List.forall₂_nil_left_iff]
    constructor
    · rintro ⟨⟩
      rfl
    · rintro rfl
      rfl
  | cons x xs ih =>
    rw [List.mapM_cons, List.forall₂_cons_left_iff]
    constructor
    · intro h
      obtain ⟨y, hy, h⟩ := of_bind_eq_ok h
      obtain ⟨ys', hys, h⟩ := of_bind_eq_ok h
      cases h
      exact ⟨y, ys', hy, ih.1 hys, rfl⟩
    · rintro ⟨y, ys', hy, hys, rfl⟩
      rw [bind_of_ok hy, bind_of_ok (ih.2 hys)]
      rfl

theorem ok_of_mem_mapM {f : α → Outcome β} {xs : List α} {ys : List β} {x : α}
    (h : xs.mapM f = .ok ys) (hx : x ∈ xs) : ∃ y, f x = .ok y := by
  rcases exists_of_mem_left (mapM_eq_ok_iff.1 h) hx with ⟨y, -, hy⟩
  exact ⟨y, hy⟩

/-- What a step gives for the item at a place stands at that place. -/
theorem exists_of_mapM_at {f : α → Outcome β} {xs : List α} {ys : List β} {position : Nat} {x : α}
    (h : xs.mapM f = .ok ys) (hx : xs[position]? = some x) :
    ∃ y, ys[position]? = some y ∧ f x = .ok y := by
  have hrelated := rel_getElem? (mapM_eq_ok_iff.1 h) position
  rw [hx] at hrelated
  exact exists_of_rel_some hrelated

/-- A list can be mapped exactly if all of its members can. -/
theorem exists_mapM_iff {f : α → Outcome β} {xs : List α} :
    (∃ ys, xs.mapM f = .ok ys) ↔ ∀ x ∈ xs, ∃ y, f x = .ok y := by
  constructor
  · rintro ⟨ys, h⟩ x hx
    exact ok_of_mem_mapM h hx
  · intro h
    simp only [mapM_eq_ok_iff]
    exact exists_forall₂ h

/-- A step for every item fails with the fault of one of them. -/
theorem exists_of_mapM_eq_error {f : α → Outcome β} {xs : List α} {fault : Fault}
    (h : xs.mapM f = .error fault) : ∃ x ∈ xs, f x = .error fault := by
  induction xs with
  | nil => cases h
  | cons x rest ih =>
    rw [List.mapM_cons] at h
    rcases bind_eq_error_iff.1 h with hx | ⟨y, -, h⟩
    · exact ⟨x, List.mem_cons_self, hx⟩
    · rcases bind_eq_error_iff.1 h with hrest | ⟨ys, -, ⟨⟩⟩
      rcases ih hrest with ⟨w, hw, hfault⟩
      exact ⟨w, List.mem_cons_of_mem x hw, hfault⟩

/-- A list that is made for a step is mapped by it. -/
theorem mapM_map_of_ok {γ : Type} {f : β → Outcome γ} {g : α → β} {k : α → γ} {xs : List α}
    (h : ∀ x ∈ xs, f (g x) = .ok (k x)) : (xs.map g).mapM f = .ok (xs.map k) := by
  rw [mapM_eq_ok_iff, List.forall₂_map_left_iff, List.forall₂_map_right_iff]
  exact List.forall₂_same.2 h

end Outcome

end Parley
