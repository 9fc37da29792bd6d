import Parley.Proofs.Stream.Fragments

/-!
# Groups of call fragments

The calls of a stream arrive in fragments. Fragments that their chunks list under one index belong
to one call, wherever in the stream they stand; a fragment without an index is a call of its own.
This file says which fragments make up which call, without an accumulator, and shows that the
accumulator keeps its calls that way.

* `groups`: the fragments of each call, the calls in order of first appearance;
* `whole`: the call that the fragments of a group make up;
* `keeps_place`, `keeps_foldl`: a fragment, and a run of fragments, are kept by groups;
* `groups_of_apart`, `apart_of_length_groups`: when every fragment is a group of its own;
* `groups_of_indexed`, `groups_of_alone`: the groups of fragments that all have an index, or none.
-/

namespace Parley.Stream

/-- A fragment of a call of texts, with the index that its chunk lists it under, if it does. -/
structure Fragment where
  index : Option Int
  call : TextCall

/-- Whether a later fragment belongs to the call of a fragment. To one without an index none
does. -/
def Fragment.joins (first later : Fragment) : Bool :=
  first.index.isSome && first.index == later.index

def Fragment.others (first : Fragment) (later : List Fragment) : List Fragment :=
  later.filter fun f => !first.joins f

/-- The fragments of each call, the calls in order of first appearance. -/
def groups : List Fragment → List (List Fragment)
  | [] => []
  | first :: rest => (first :: rest.filter first.joins) :: groups (first.others rest)
termination_by fragments => fragments.length
decreasing_by
  exact Nat.lt_succ_of_le (List.length_filter_le _ rest)

def firstText (texts : List String) : String :=
  (texts.find? fun text => text ≠ "").getD ""

/-- The call that fragments make up: the first id and the first name that are not empty, and all
pieces of the argument text in order. -/
def whole (group : List Fragment) : TextCall where
  id := firstText (group.map fun f => f.call.id)
  name := firstText (group.map fun f => f.call.name)
  arguments :=
    let arguments := String.join (group.map fun f => f.call.arguments)
    if arguments = "" then "{}" else arguments

/-! ## One more fragment -/

/-- The groups with one more fragment: in the group that it belongs to, else in a new one. -/
def addTo (f : Fragment) : List (List Fragment) → List (List Fragment)
  | [] => [[f]]
  | group :: rest =>
    if group.head?.any fun first => first.joins f then (group ++ [f]) :: rest
    else group :: addTo f rest

/-- A fragment is added to the groups of those before it. -/
theorem groups_append (fragments : List Fragment) (f : Fragment) :
    groups (fragments ++ [f]) = addTo f (groups fragments) := by
  induction fragments using groups.induct with
  | case1 => simp [groups, addTo, Fragment.others]
  | case2 first rest ih =>
    -- the fragment belongs to the first group, or else it is for the fragments left over
    cases hjoins : first.joins f with
    | true =>
      simp [groups, addTo, Fragment.others, hjoins]
    | false =>
      have hothers : first.others (rest ++ [f]) = first.others rest ++ [f] := by
        simp [Fragment.others, hjoins]
      simp [groups, addTo, hothers, hjoins, ih]

/-! ## Pending calls -/

def assemble (group : List Fragment) : PendingCall :=
  group.foldl (fun call f => call.extend f.call.toCall) ⟨.str "", .str "", []⟩

/-- The last fragment of a group extends the call of the others. -/
theorem assemble_append (group : List Fragment) (f : Fragment) :
    assemble (group ++ [f]) = (assemble group).extend f.call.toCall := by
  simp [assemble]

/-- The first text is the first that is not empty. -/
theorem firstText_cons (text : String) (rest : List String) :
    firstText (text :: rest) = if text = "" then firstText rest else text := by
  by_cases h : text = "" <;> simp [firstText, h]

theorem firstText_of_first {text : String} {later : List String}
    (h : text = "" → ∀ t ∈ later, t = "") : firstText (text :: later) = text := by
  by_cases htext : text = ""
  · have hnone : later.find? (fun t => t ≠ "") = none := by
      simpa using h htext
    rw [firstText_cons, if_pos htext, firstText, hnone, htext]
    rfl
  · simp [firstText_cons, htext]

/-- Of an id or a name, the first text that is not empty stays. -/
theorem firstText_extend (old new : String) (rest : List String) :
    firstText ((if (Value.str new).truthy && !(Value.str old).truthy then new else old) :: rest) =
      firstText (old :: new :: rest) := by
  by_cases hold : old = "" <;> by_cases hnew : new = "" <;>
    simp [firstText_cons, hold, hnew, Value.truthy]

/-- Extending a call keeps the first id and the first name, and joins the arguments. -/
theorem foldl_extend (group : List Fragment) (id name : String) (fragments : List String) :
    group.foldl (fun call f => PendingCall.extend call f.call.toCall)
        ⟨.str id, .str name, fragments.map .str⟩ =
      PendingCall.mk (.str (firstText (id :: group.map fun f => f.call.id)))
        (.str (firstText (name :: group.map fun f => f.call.name)))
        ((fragments ++ (group.map fun f => f.call.arguments).flatMap keep).map .str) := by
  induction group generalizing id name fragments with
  | nil =>
    by_cases hid : id = "" <;> by_cases hname : name = "" <;>
      simp [firstText, hid, hname]
  | cons f rest ih =>
    have hextend : (PendingCall.mk (.str id) (.str name) (fragments.map .str)).extend
        f.call.toCall =
          ⟨.str (if (Value.str f.call.id).truthy && !(Value.str id).truthy then f.call.id else id),
            .str (if (Value.str f.call.name).truthy && !(Value.str name).truthy
              then f.call.name else name),
            (fragments ++ keep f.call.arguments).map .str⟩ := by
      by_cases h : f.call.arguments = "" <;>
        simp [PendingCall.extend, PendingCall.pieces, TextCall.toCall, keep, h, apply_ite]
    simp only [List.foldl_cons, hextend, ih, firstText_extend, List.map_cons, List.flatMap_cons,
      List.append_assoc]

/-- When the stream is over, the pending call of a group is the call that its fragments make up. -/
theorem finish_assemble (group : List Fragment) :
    (assemble group).finish = .ok (whole group).toCall := by
  have hassemble : assemble group = _ := foldl_extend group "" "" []
  have hblank : ∀ texts : List String, firstText ("" :: texts) = firstText texts := by
    intro texts
    exact firstText_cons "" texts
  calc
    (assemble group).finish
        = (PendingCall.mk (.str (firstText (group.map fun f => f.call.id)))
            (.str (firstText (group.map fun f => f.call.name)))
            (((group.map fun f => f.call.arguments).flatMap keep).map .str)).finish := by
          simpa only [hblank, List.nil_append, List.map_nil] using
            congrArg PendingCall.finish hassemble
    _ = .ok (whole group).toCall := by
          simp only [finish_pending, join_flatMap_keep, whole]

/-! ## What the accumulator keeps -/

/-- An entry of an accumulator that keeps a group of fragments. The entries without an index are
numbered below a bound. -/
inductive Keeps (unindexed : Nat) : CallKey × PendingCall → List Fragment → Prop where
  | indexed {index : Int} {first : Fragment} (later : List Fragment)
      (listed : first.index = some index) :
      Keeps unindexed (.block (.int index), assemble (first :: later)) (first :: later)
  | alone {number : Nat} {fragment : Fragment} (before : number < unindexed)
      (unlisted : fragment.index = none) :
      Keeps unindexed (.alone number, assemble [fragment]) [fragment]

/-- The calls with a fragment put where the accumulator keeps it, and the number of calls without an
index after that. -/
def place (held : List (CallKey × PendingCall) × Nat) (f : Fragment) :
    List (CallKey × PendingCall) × Nat :=
  match f.index with
  | some index => (mergeFragment (.block (.int index)) f.call.toCall held.1, held.2)
  | none => (mergeFragment (.alone held.2) f.call.toCall held.1, held.2 + 1)

/-- A call starts as an empty one that is extended. -/
theorem start_toCall (call : TextCall) :
    PendingCall.start call.toCall = (PendingCall.mk (.str "") (.str "") []).extend call.toCall := by
  by_cases hid : call.id = "" <;> by_cases hname : call.name = "" <;>
    simp [PendingCall.start, PendingCall.extend, TextCall.toCall, hid, hname, Value.truthy]

/-- A call with an index of its own is kept however many come without one. -/
theorem Keeps.next {unindexed : Nat} {c : CallKey × PendingCall} {group : List Fragment}
    (h : Keeps unindexed c group) : Keeps (unindexed + 1) c group := by
  cases h with
  | indexed later listed => exact .indexed later listed
  | alone before unlisted => exact .alone (Nat.lt_succ_of_lt before) unlisted

/-- A fragment with an index goes to the group whose first fragment it joins. -/
theorem keeps_indexed {unindexed : Nat} {calls : List (CallKey × PendingCall)}
    {held : List (List Fragment)} {f : Fragment} {index : Int} (hf : f.index = some index)
    (h : List.Forall₂ (Keeps unindexed) calls held) :
    List.Forall₂ (Keeps unindexed) (mergeFragment (.block (.int index)) f.call.toCall calls)
      (addTo f held) := by
  induction h with
  | nil =>
    have hstart : PendingCall.start f.call.toCall = assemble [f] := start_toCall f.call
    simpa only [mergeFragment, addTo, hstart] using List.Forall₂.cons (.indexed [] hf) .nil
  | @cons c group calls held hfirst hrest ih =>
    cases hfirst with
    | @indexed other first later listed =>
      by_cases hsame : other = index
      · have hjoins : first.joins f = true := by simp [Fragment.joins, listed, hf, hsame]
        have hkey : (CallKey.block (.int other)).same (.block (.int index)) = true := by
          simp [CallKey.same, same_int, hsame]
        simp only [mergeFragment, addTo, hkey, hjoins, if_true, List.head?_cons, Option.any_some,
          ← assemble_append]
        exact .cons (.indexed _ listed) hrest
      · have hjoins : first.joins f = false := by simp [Fragment.joins, listed, hf, hsame]
        have hkey : (CallKey.block (.int other)).same (.block (.int index)) = false := by
          simp [CallKey.same, same_int, hsame]
        simp only [mergeFragment, addTo, hkey, hjoins, Bool.false_eq_true, if_false,
          List.head?_cons, Option.any_some]
        exact .cons (.indexed later listed) ih
    | @alone number fragment before unlisted =>
      have hjoins : fragment.joins f = false := by simp [Fragment.joins, unlisted]
      have hkey : (CallKey.alone number).same (.block (.int index)) = false := rfl
      simp only [mergeFragment, addTo, hkey, hjoins, Bool.false_eq_true, if_false,
        List.head?_cons, Option.any_some]
      exact .cons (.alone before unlisted) ih

/-- A fragment without an index is kept as a group of its own. -/
theorem keeps_alone {unindexed : Nat} {calls : List (CallKey × PendingCall)}
    {held : List (List Fragment)} {f : Fragment} (hf : f.index = none)
    (h : List.Forall₂ (Keeps unindexed) calls held) :
    List.Forall₂ (Keeps (unindexed + 1)) (mergeFragment (.alone unindexed) f.call.toCall calls)
      (addTo f held) := by
  induction h with
  | nil =>
    have hstart : PendingCall.start f.call.toCall = assemble [f] := start_toCall f.call
    have hkept : Keeps (unindexed + 1) (.alone unindexed, assemble [f]) [f] :=
      .alone (Nat.lt_succ_self unindexed) hf
    simpa only [mergeFragment, addTo, hstart] using List.Forall₂.cons hkept .nil
  | @cons c group calls held hfirst _ ih =>
    -- no entry has the number that comes next, and no fragment is joined by one without an index
    have hkey : c.1.same (.alone unindexed) = false := by
      cases hfirst with
      | indexed later listed => rfl
      | alone before unlisted => simpa [CallKey.same] using before.ne
    have hjoins : (group.head?.any fun first => first.joins f) = false := by
      cases hfirst with
      | indexed later listed => simp [Fragment.joins, listed, hf]
      | alone before unlisted => simp [Fragment.joins, unlisted]
    simp only [mergeFragment, addTo, hkey, hjoins, Bool.false_eq_true, if_false]
    exact .cons hfirst.next ih

/-- One more fragment is kept by the groups with one more fragment. -/
theorem keeps_place {held : List (CallKey × PendingCall) × Nat} {fragments : List Fragment}
    (h : List.Forall₂ (Keeps held.2) held.1 (groups fragments)) (f : Fragment) :
    List.Forall₂ (Keeps (place held f).2) (place held f).1 (groups (fragments ++ [f])) := by
  cases hf : f.index with
  | some index => simpa only [place, hf, groups_append] using keeps_indexed hf h
  | none => simpa only [place, hf, groups_append] using keeps_alone hf h

/-- Fragments are kept by the groups that they form together with those before them. -/
theorem keeps_foldl {held : List (CallKey × PendingCall) × Nat} {before : List Fragment}
    (later : List Fragment) (h : List.Forall₂ (Keeps held.2) held.1 (groups before)) :
    List.Forall₂ (Keeps (later.foldl place held).2) (later.foldl place held).1
      (groups (before ++ later)) := by
  induction later generalizing held before with
  | nil => simpa using h
  | cons f rest ih => simpa using ih (keeps_place h f)

/-- The entries that keep groups finish as the calls that the groups make up. -/
theorem mapM_finish_of_keeps {unindexed : Nat} {calls : List (CallKey × PendingCall)}
    {held : List (List Fragment)} (h : List.Forall₂ (Keeps unindexed) calls held) :
    calls.mapM (fun c => c.2.finish) = .ok ((held.map whole).map TextCall.toCall) := by
  have hfinish : ∀ (c : CallKey × PendingCall) (group : List Fragment), Keeps unindexed c group →
      c.2.finish = .ok (whole group).toCall := by
    intro c group hkeeps
    cases hkeeps with
    | indexed later listed => exact finish_assemble _
    | alone before unlisted => exact finish_assemble _
  simpa only [Outcome.mapM_eq_ok_iff, List.forall₂_map_right_iff] using h.imp hfinish

/-! ## Fragments of one kind -/

/-- Fragments of which none belongs to the call of an earlier one are groups of their own. -/
theorem groups_of_apart {fragments : List Fragment}
    (h : fragments.Pairwise fun first later => first.joins later = false) :
    groups fragments = fragments.map fun f => [f] := by
  induction h with
  | nil => simp [groups]
  | @cons first rest hfirst _ ih =>
    have hnone : rest.filter first.joins = [] := by
      simpa [List.filter_eq_nil_iff] using hfirst
    have hothers : first.others rest = rest := by
      simpa [Fragment.others, List.filter_eq_self] using hfirst
    rw [groups, hnone, hothers, ih, List.map_cons]

/-- There are no more groups than fragments. -/
theorem length_groups_le (fragments : List Fragment) :
    (groups fragments).length ≤ fragments.length := by
  induction fragments using groups.induct with
  | case1 => simp [groups]
  | case2 first rest ih =>
    have hothers : (first.others rest).length ≤ rest.length := List.length_filter_le _ rest
    simp only [groups, List.length_cons]
    omega

/-- There are as many groups as fragments only if no fragment belongs to the call of an earlier
one. -/
theorem apart_of_length_groups {fragments : List Fragment}
    (h : (groups fragments).length = fragments.length) :
    fragments.Pairwise fun first later => first.joins later = false := by
  induction fragments using groups.induct with
  | case1 => exact .nil
  | case2 first rest ih =>
    -- the first group must not take any of the later fragments
    have hle := length_groups_le (first.others rest)
    have hothers : (first.others rest).length ≤ rest.length := List.length_filter_le _ rest
    simp only [groups, List.length_cons] at h
    have hlength : (first.others rest).length = rest.length := by omega
    have hall : ∀ later ∈ rest, (!first.joins later) = true :=
      List.length_filter_eq_length_iff.1 hlength
    have hrest : first.others rest = rest := List.filter_eq_self.2 hall
    rw [hrest] at ih h
    refine .cons ?_ (ih (by omega))
    simpa using hall

/-- Fragments without an index are groups of their own. -/
theorem groups_of_alone {fragments : List Fragment} (h : ∀ f ∈ fragments, f.index = none) :
    groups fragments = fragments.map fun f => [f] := by
  apply groups_of_apart
  rw [List.pairwise_iff_forall_sublist]
  intro first later hsublist
  simp [Fragment.joins, h first (hsublist.subset (by simp))]

/-- Fragments that all have an index are grouped by it. -/
theorem groups_of_indexed {fragments : List Fragment} (h : ∀ f ∈ fragments, f.index ≠ none) :
    groups fragments = (fragments.map Fragment.index).eraseDups.map
      fun index => fragments.filter fun f => f.index == index := by
  induction fragments using groups.induct with
  | case1 => simp [groups]
  | case2 first rest ih =>
    have hjoins : first.joins = fun later => later.index == first.index := by
      funext later
      have hsome : first.index.isSome = true := Option.isSome_iff_ne_none.2 (h first (by simp))
      simp [Fragment.joins, hsome, Bool.beq_comm]
    have hothers : ∀ f ∈ first.others rest, f ∈ rest ∧ f.index ≠ first.index := by
      intro f hf
      simpa [Fragment.others, hjoins] using hf
    have hrest := ih fun f hf => h f (by simp [(hothers f hf).1])
    -- the indices left over are those of the fragments left over
    have hindices : (rest.map Fragment.index).filter (fun index => !index == first.index) =
        (first.others rest).map Fragment.index := by
      simp [Fragment.others, hjoins, List.filter_map, Function.comp_def]
    have hgroup : ∀ index ∈ ((first.others rest).map Fragment.index).eraseDups,
        (first.others rest).filter (fun f => f.index == index) =
          (first :: rest).filter (fun f => f.index == index) := by
      intro index hindex
      rcases List.mem_map.1 (List.mem_eraseDups.1 hindex) with ⟨f, hf, rfl⟩
      have hne := (hothers f hf).2
      have hkept : ∀ g ∈ rest, (g.index == f.index && !g.index == first.index) =
          (g.index == f.index) := by
        intro g _
        by_cases hg : g.index = f.index <;> simp [hg, hne]
      simp only [Fragment.others, hjoins, List.filter_filter, List.filter_congr hkept]
      simp [Ne.symm hne]
    calc
      groups (first :: rest)
          = (first :: rest.filter first.joins) :: groups (first.others rest) := by
            simp [groups]
      _ = _ := by
            simp [hrest, List.eraseDups_cons, hindices, hjoins, List.map_congr_left hgroup]

end Parley.Stream
