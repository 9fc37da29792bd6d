import Parley.Proofs.Json.DecimalText
import Parley.Proofs.Json.StringText
import Parley.Proofs.Json.Tree

/-!
# Written values are read back

The compact text of a value, read again, gives what there is to read in it; for a tree this is
the value. The reader goes on after the value, so the statement about one value is about its text
with a continuation that closes it, and about any depth that is enough for both.

Main statements:

* `readBack`: what the text of a value is read as; `readBack_of_tree`: of a tree, the value;
* `readValue_compact`: the text of a value is read, and no further;
* `read_of_write`: a text that was written is read;
* `read_of_write_tree`: the text of a tree is read as the tree.
-/

namespace Parley.Json

/-! ## What is read back -/

mutual

/-- The value that the text of a value is read as: a repeated key keeps its first place and its
last value, and there is one NaN only. -/
def readBack : Value → Value
  | .list items => .list (readBackItems items)
  | .dict fields => .dict (fieldsOf (readBackFields fields))
  | .float x => .float x.readBack
  | v => v

def readBackItems : List Value → List Value
  | [] => []
  | v :: rest => readBack v :: readBackItems rest

def readBackFields : List (String × Value) → List (String × Value)
  | [] => []
  | (k, v) :: rest => (k, readBack v) :: readBackFields rest

end

/-! ## The start of a text -/

/-- A character with which the text of a value can start. -/
structure Opens (c : Char) : Prop where
  not_space : isSpace c = false
  not_bracket : c ≠ ']'
  not_brace : c ≠ '}'
  not_mark : c ≠ '\ufeff'

def Starts (cs : List Char) : Prop :=
  ∃ c r, cs = c :: r ∧ Opens c

namespace Starts

variable {cs : List Char}

/-- What starts a value starts a longer text. -/
theorem append (h : Starts cs) (rest : List Char) : Starts (cs ++ rest) := by
  obtain ⟨c, r, rfl, ho⟩ := h
  exact ⟨c, r ++ rest, rfl, ho⟩

/-- Nothing is skipped in front of a value. -/
theorem skip (h : Starts cs) : skip cs = cs := by
  obtain ⟨c, r, rfl, ho⟩ := h
  simp [Json.skip, ho.not_space]

theorem skip_space (h : Starts cs) : Json.skip (' ' :: cs) = cs :=
  h.skip

end Starts

/-- A character with which the text of a scalar other than a string can start. -/
structure OpensScalar (c : Char) : Prop extends Opens c where
  not_quote : c ≠ '"'
  not_list : c ≠ '['
  not_dict : c ≠ '{'

/-- What opens a scalar is read as one. -/
theorem readValue_scalar {c : Char} {cs : List Char} {depth : Nat} (h : OpensScalar c) :
    readValue (depth + 1) (c :: cs) = readScalar (c :: cs) := by
  rw [readValue]
  · rintro r ⟨⟩
    exact h.not_quote rfl
  · rintro r ⟨⟩
    exact h.not_list rfl
  · rintro r ⟨⟩
    exact h.not_dict rfl

/-- A scalar that is read is opened by its first character. -/
theorem opensScalar_of_readScalar {c : Char} {cs : List Char} {p : Value × List Char}
    (h : readScalar (c :: cs) = .ok p) : OpensScalar c := by
  have hspace : isSpace c = false := by
    simp only [isSpace, Bool.or_eq_false_iff, decide_eq_false_iff_not]
    refine ⟨⟨⟨?_, ?_⟩, ?_⟩, ?_⟩ <;>
      · rintro rfl
        simp [readScalar, words, List.isPrefixOf, readNumber?, readMagnitude?, readWhole] at h
  refine { not_space := hspace, not_bracket := ?_, not_brace := ?_, not_mark := ?_,
           not_quote := ?_, not_list := ?_, not_dict := ?_ } <;>
    · rintro rfl
      simp [readScalar, words, List.isPrefixOf, readNumber?, readMagnitude?, readWhole] at h

theorem readScalar_writable_int {n : Int} (h : writable (.int n) = true) :
    readScalar (Number.intText n) = .ok (.int n, []) := by
  have hshort : isTooLong (.int n) = false := by simp [isTooLong, writable_int.1 h]
  rw [readScalar_intText, hshort]
  rfl

/-- The text of a scalar is read back as the scalar. -/
theorem readScalar_scalarText {v : Value} (hv : writable v = true) (hs : v.text? = none)
    (hl : ∀ items, v ≠ .list items) (hd : ∀ fields, v ≠ .dict fields) :
    readScalar (scalarText v) = .ok (readBack v, []) := by
  cases v with
  | null => rfl
  | bool b => cases b <;> rfl
  | int n => exact readScalar_writable_int hv
  | float x => exact Double.readScalar_layout x
  | str s => cases hs
  | list items => exact absurd rfl (hl items)
  | dict fields => exact absurd rfl (hd fields)
  | object kind fields => cases hv

theorem readValue_scalarText {v w : Value} {rest : List Char} {depth : Nat}
    (h : readScalar (scalarText v) = .ok (w, [])) (hrest : Closes rest) :
    readValue (depth + 1) (scalarText v ++ rest) = .ok (w, rest) := by
  cases hc : scalarText v with
  | nil =>
    rw [hc] at h
    cases h
  | cons c cs =>
    rw [hc] at h
    have happ := hrest.readScalar_append h
    rw [List.cons_append] at happ ⊢
    rw [readValue_scalar (opensScalar_of_readScalar h), happ]
    rfl

theorem starts_of_readScalar {cs : List Char} {p : Value × List Char}
    (h : readScalar cs = .ok p) : Starts cs := by
  cases cs with
  | nil => cases h
  | cons c cs => exact ⟨c, cs, rfl, (opensScalar_of_readScalar h).toOpens⟩

theorem starts_quote (cs : List Char) : Starts ('"' :: cs) :=
  ⟨'"', cs, rfl, by decide, by decide, by decide, by decide⟩

theorem starts_compact {v : Value} (hv : writable v = true) : Starts (compact v) := by
  cases v with
  | str s => exact starts_quote _
  | list items => exact ⟨'[', _, rfl, by decide, by decide, by decide, by decide⟩
  | dict fields => exact ⟨'{', _, rfl, by decide, by decide, by decide, by decide⟩
  | _ =>
    rw [compact]
    · exact starts_of_readScalar (readScalar_scalarText hv rfl (by simp) (by simp))
    · simp
    · simp

theorem starts_compactItems {v : Value} (items : List Value) (hv : writable v = true) :
    Starts (compactItems (v :: items)) := by
  cases items with
  | nil => exact (starts_compact hv).append _
  | cons w items =>
    rw [compactItems]
    · exact (starts_compact hv).append _
    · simp

theorem starts_compactFields (f : String × Value) (fields : Fields) :
    Starts (compactFields (f :: fields)) := by
  obtain ⟨k, v⟩ := f
  cases fields with
  | nil => exact starts_quote _
  | cons g fields => exact starts_quote _

/-! ## Fields -/

/-- Fields with distinct keys are put one behind the other. -/
theorem foldl_put_of_nodup {before fields : Fields}
    (h : ((before ++ fields).map Prod.fst).Nodup) :
    fields.foldl (fun fs m => Fields.put fs m.1 m.2) before = before ++ fields := by
  induction fields generalizing before with
  | nil => simp
  | cons f rest ih =>
    obtain ⟨k, v⟩ := f
    -- a key that is new is put at the end
    have hk : k ∉ before.map Prod.fst := by
      intro hmem
      simp only [List.map_append, List.map_cons, List.nodup_append] at h
      exact h.2.2 k hmem k (by simp) rfl
    rw [List.foldl_cons, put_of_not_mem v hk, ih]
    · simp
    · simpa using h

/-- Where the keys are distinct, no field is dropped. -/
theorem fieldsOf_of_nodup {fields : Fields} (h : (fields.map Prod.fst).Nodup) :
    fieldsOf fields = fields := by
  have hfold : fields.foldl (fun fs m => Fields.put fs m.1 m.2) [] = [] ++ fields :=
    foldl_put_of_nodup h
  simpa [fieldsOf] using hfold

mutual

/-- What interchange text can say is read back as it is. -/
theorem readBack_of_tree : ∀ v : Value, Tree v → readBack v = v
  | .list items, hv => by
    rw [readBack, readBackItems_of_trees items (tree_list.1 hv)]
  | .dict fields, hv => by
    obtain ⟨hkeys, hall⟩ := tree_dict.1 hv
    rw [readBack, readBackFields_of_trees fields hall, fieldsOf_of_nodup hkeys]
  | .float x, hv => by
    rw [readBack, Double.readBack_of_plain hv.plain]
  | .null, _ | .bool _, _ | .int _, _ | .str _, _ | .object _ _, _ => by
    simp [readBack]

theorem readBackItems_of_trees : ∀ items : List Value, (∀ v ∈ items, Tree v) →
    readBackItems items = items
  | [], _ => rfl
  | v :: rest, hall => by
    rw [readBackItems, readBack_of_tree v (hall v (by simp)),
      readBackItems_of_trees rest fun w hw => hall w (by simp [hw])]

theorem readBackFields_of_trees : ∀ fields : Fields, (∀ f ∈ fields, Tree f.2) →
    readBackFields fields = fields
  | [], _ => rfl
  | (k, v) :: rest, hall => by
    rw [readBackFields, readBack_of_tree v (hall (k, v) (by simp)),
      readBackFields_of_trees rest fun f hf => hall f (by simp [hf])]

end

/-! ## Values -/

/-- What stands in brackets is read as a list. -/
theorem readValue_list {cs : List Char} {depth : Nat} (h : Starts cs) :
    readValue (depth + 1) ('[' :: cs) =
      (readItems depth cs).map fun p => (.list p.1, p.2) := by
  rw [readValue, h.skip]
  obtain ⟨c, r, rfl, ho⟩ := h
  split
  · rename_i hr
    cases hr
    exact absurd rfl ho.not_bracket
  · rfl

/-- What stands in braces is read as a dictionary, in which a later field replaces an earlier one.
-/
theorem readValue_dict {cs : List Char} {depth : Nat} (h : Starts cs) :
    readValue (depth + 1) ('{' :: cs) =
      (readMembers depth cs).map fun p => (.dict (fieldsOf p.1), p.2) := by
  rw [readValue, h.skip]
  obtain ⟨c, r, rfl, ho⟩ := h
  split
  · rename_i hr
    cases hr
    exact absurd rfl ho.not_brace
  · rfl

theorem skip_comma (cs : List Char) : skip (',' :: cs) = ',' :: cs := rfl

/-- After a member of a list comes the bracket, or a comma and another member. -/
theorem readItems_of_value {v : Value} {cs rest : List Char} {depth : Nat}
    (h : readValue depth cs = .ok (v, rest)) :
    readItems (depth + 1) cs = match skip rest with
      | ']' :: r => .ok ([v], r)
      | ',' :: r => (readItems depth (skip r)).map fun p => (v :: p.1, p.2)
      | r => .error ⟨.comma, r.length⟩ := by
  rw [readItems, h]
  rfl

/-- After a member of a dictionary comes the brace, or a comma and another member. -/
theorem readMembers_of_value {k : String} {v : Value} {cs rest : List Char} {depth : Nat}
    (h : readValue depth (skip cs) = .ok (v, rest)) :
    readMembers (depth + 1) (stringText k.toList ++ ':' :: cs) = match skip rest with
      | '}' :: r => .ok ([(k, v)], r)
      | ',' :: r => (readMembers depth (skip r)).map fun p => ((k, v) :: p.1, p.2)
      | r => .error ⟨.comma, r.length⟩ := by
  -- the colon is what ends the key
  have hkey := readString_escaped ((k.toList.flatMap escapeChar ++ '"' :: ':' :: cs).length + 1)
    k.toList (':' :: cs)
  simp only [stringText, List.cons_append, List.append_assoc, List.nil_append]
  rw [readMembers, hkey]
  simp only [bind, Except.bind]
  rw [show skip (':' :: cs) = ':' :: cs from rfl]
  simp only [h, String.ofList_toList]
  rfl

mutual

/-- The compact text of a value is read back, given enough depth. The induction is on the value; the
text that follows and the depth are those of the place where it stands. -/
theorem readValue_compact : ∀ (v : Value) (rest : List Char) (depth : Nat), writable v = true →
    Closes rest → depthOf (compact v ++ rest) ≤ depth →
      readValue depth (compact v ++ rest) = .ok (readBack v, rest)
  | .list [], rest, depth + 1, _, _, _ => by
    rfl
  -- a bracket or brace costs one level of depth, which the length of the text allows
  | .list (v :: items), rest, depth + 1, hv, _, hdepth => by
    have hall := writable_list.1 hv
    have hread := readItems_compact (v :: items) rest depth (by simp) hall (by
      simp only [compact, depthOf, List.cons_append, List.length_cons] at hdepth ⊢
      omega)
    have hstarts := (starts_compactItems items (hall v (by simp))).append rest
    rw [compact, List.cons_append, readValue_list hstarts, hread]
    rfl
  | .dict [], rest, depth + 1, _, _, _ => by
    rfl
  | .dict (f :: fields), rest, depth + 1, hv, _, hdepth => by
    have hall := writable_dict.1 hv
    have hread := readMembers_compact (f :: fields) rest depth (by simp) hall (by
      simp only [compact, depthOf, List.cons_append, List.length_cons] at hdepth ⊢
      omega)
    have hstarts := (starts_compactFields f fields).append rest
    rw [compact, List.cons_append, readValue_dict hstarts, hread]
    rfl
  | .str s, rest, depth + 1, _, _, _ => by
    have hread := readString_escaped ((s.toList.flatMap escapeChar ++ '"' :: rest).length + 1)
      s.toList rest
    simp only [compact, scalarText, stringText, List.cons_append, List.append_assoc,
      List.nil_append]
    rw [readValue, hread]
    simp only [bind, Except.bind, pure, Except.pure, String.ofList_toList, readBack]
  -- scalars are read by their texts alone
  | .null, _, depth + 1, _, hrest, _ => readValue_scalarText (v := .null) rfl hrest
  | .bool b, _, depth + 1, _, hrest, _ =>
    readValue_scalarText (v := .bool b) (by cases b <;> rfl) hrest
  | .int n, _, depth + 1, hv, hrest, _ =>
    readValue_scalarText (v := .int n) (readScalar_writable_int hv) hrest
  | .float x, _, depth + 1, _, hrest, _ =>
    readValue_scalarText (v := .float x) (Double.readScalar_layout x) hrest
  | .object _ _, _, _, hv, _, _ => by
    cases hv
  | _, _, 0, _, _, hdepth => by
    simp [depthOf] at hdepth

/-- The compact texts of the members of a list are read back. -/
theorem readItems_compact : ∀ (items : List Value) (rest : List Char) (depth : Nat),
    items ≠ [] → (∀ v ∈ items, writable v = true) →
    depthOf (compactItems items ++ rest) < depth →
      readItems depth (compactItems items ++ rest) = .ok (readBackItems items, rest)
  | [], _, _, h, _, _ => absurd rfl h
  | _, _, 0, _, _, hdepth => by
    simp [depthOf] at hdepth
  | [v], rest, depth + 1, _, hall, hdepth => by
    have hread := readValue_compact v (']' :: rest) depth (hall v (by simp)) (.bracket rest) (by
      simp only [compactItems, depthOf, List.append_assoc, List.singleton_append] at hdepth ⊢
      omega)
    rw [compactItems, List.append_assoc, List.singleton_append, readItems_of_value hread]
    rfl
  | v :: w :: items, rest, depth + 1, _, hall, hdepth => by
    -- the first item is followed by a comma, which closes it
    have htext : compactItems (v :: w :: items) ++ rest =
        compact v ++ ',' :: ' ' :: (compactItems (w :: items) ++ rest) := by
      rw [compactItems] <;> simp
    rw [htext] at hdepth ⊢
    have hread := readValue_compact v (',' :: ' ' :: (compactItems (w :: items) ++ rest)) depth
      (hall v (by simp)) (.comma _) (by
        simp only [depthOf] at hdepth ⊢
        omega)
    have hitems := readItems_compact (w :: items) rest depth (by simp)
      (fun x hx => hall x (List.mem_cons_of_mem v hx)) (by
        simp only [depthOf, List.length_append, List.length_cons] at hdepth ⊢
        omega)
    have hstarts := (starts_compactItems items (hall w (by simp))).append rest
    rw [readItems_of_value hread, skip_comma]
    simp only [hstarts.skip_space, hitems, Except.map]
    rfl

/-- The compact texts of the members of a dictionary are read back. -/
theorem readMembers_compact : ∀ (fields : Fields) (rest : List Char) (depth : Nat),
    fields ≠ [] → (∀ f ∈ fields, writable f.2 = true) →
    depthOf (compactFields fields ++ rest) < depth →
      readMembers depth (compactFields fields ++ rest) = .ok (readBackFields fields, rest)
  | [], _, _, h, _, _ => absurd rfl h
  | _, _, 0, _, _, hdepth => by
    simp [depthOf] at hdepth
  | [(k, v)], rest, depth + 1, _, hall, hdepth => by
    have htext : compactFields [(k, v)] ++ rest =
        stringText k.toList ++ ':' :: ' ' :: (compact v ++ '}' :: rest) := by
      simp [compactFields]
    rw [htext] at hdepth ⊢
    have hv : writable v = true := hall (k, v) (by simp)
    have hread := readValue_compact v ('}' :: rest) depth hv (.brace rest) (by
      simp only [depthOf, List.length_append, List.length_cons] at hdepth ⊢
      omega)
    rw [← ((starts_compact hv).append _).skip_space] at hread
    rw [readMembers_of_value hread]
    rfl
  | (k, v) :: g :: fields, rest, depth + 1, _, hall, hdepth => by
    have htext : compactFields ((k, v) :: g :: fields) ++ rest = stringText k.toList ++
        ':' :: ' ' :: (compact v ++ ',' :: ' ' :: (compactFields (g :: fields) ++ rest)) := by
      rw [compactFields] <;> simp
    rw [htext] at hdepth ⊢
    -- after the colon a blank is skipped, then the value is closed by a comma
    have hv : writable v = true := hall (k, v) (by simp)
    have hread := readValue_compact v (',' :: ' ' :: (compactFields (g :: fields) ++ rest)) depth
      hv (.comma _) (by
        simp only [depthOf, List.length_append, List.length_cons] at hdepth ⊢
        omega)
    have hmembers := readMembers_compact (g :: fields) rest depth (by simp)
      (fun x hx => hall x (List.mem_cons_of_mem _ hx)) (by
        simp only [depthOf, List.length_append, List.length_cons] at hdepth ⊢
        omega)
    have hstarts := (starts_compactFields g fields).append rest
    rw [← ((starts_compact hv).append _).skip_space] at hread
    rw [readMembers_of_value hread, skip_comma]
    simp only [hstarts.skip_space, hmembers, Except.map]
    rfl

end

/-- What can be written is read back from its text. -/
theorem read_compact {v : Value} (hv : writable v = true) :
    read (String.ofList (compact v)) = .ok (readBack v) := by
  have hstarts := starts_compact hv
  have hread := readValue_compact v [] (depthOf (compact v)) hv .nil (by simp)
  rw [List.append_nil] at hread
  have htext : readText (compact v) = .ok (readBack v) := by
    unfold readText
    rw [hstarts.skip, hread]
    obtain ⟨c, r, hc, ho⟩ := hstarts
    rw [hc]
    -- a value does not start with a byte order mark
    split
    · rename_i h
      cases h
      exact absurd rfl ho.not_mark
    · rfl
  rw [read, String.toList_ofList, htext]
  rfl

/-- A value that can be written has its compact text. -/
theorem write_of_writable {v : Value} (hv : writable v = true) :
    write v = .ok (String.ofList (compact v)) := by
  rw [write, obstacle?_eq_none_iff.2 hv]

/-- It is written exactly if nothing stands in the way. -/
theorem write_eq_ok_iff {v : Value} {text : String} :
    write v = .ok text ↔ writable v = true ∧ String.ofList (compact v) = text := by
  unfold write
  rw [← obstacle?_eq_none_iff]
  cases obstacle? v <;> simp [misuse]

/-- A text that was written is read. -/
theorem read_of_write {v : Value} {text : String} (h : write v = .ok text) :
    read text = .ok (readBack v) := by
  obtain ⟨hv, rfl⟩ := write_eq_ok_iff.1 h
  exact read_compact hv

/-- The digits of a number are a text that is not read if they are too many. -/
theorem read_digits {n : Nat} (h : Number.isShort n = false) :
    ∃ e, read (String.ofList (Number.digits n)) = .error e ∧ e.isTooLong = true := by
  obtain ⟨c, ds, hds, hc⟩ := exists_digits n
  have hne : ∀ d : Char, d.isDigit = false → c ≠ d := by
    rintro d hd rfl
    rw [hc] at hd
    cases hd
  have hopens : OpensScalar c :=
    { not_space := by simp [isSpace, hne], not_bracket := hne _ rfl, not_brace := hne _ rfl
      not_mark := hne _ rfl, not_quote := hne _ rfl, not_list := hne _ rfl, not_dict := hne _ rfl }
  have hread := readScalar_intText n
  have hlong : isTooLong (.int n) = true := by simp [isTooLong, h]
  rw [if_pos hlong, Number.intText, if_neg (by omega), Int.natAbs_natCast, hds] at hread
  have htext : readText (c :: ds) = .error ⟨.tooManyDigits, (c :: ds).length⟩ := by
    have hstarts : Starts (c :: ds) := ⟨c, ds, rfl, hopens.toOpens⟩
    unfold readText
    rw [hstarts.skip, depthOf, readValue_scalar hopens, hread]
    split
    · rename_i h
      cases h
      exact absurd rfl hopens.not_mark
    · rfl
  rw [read, String.toList_ofList, hds, htext]
  exact ⟨_, rfl, rfl⟩

/-- The text of a tree is read as the tree. -/
theorem read_of_write_tree {v : Value} {text : String} (hv : Tree v) (h : write v = .ok text) :
    read text = .ok v := by
  rw [read_of_write h, readBack_of_tree v hv]

end Parley.Json
