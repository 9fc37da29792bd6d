import Parley.Proofs.Stream.Meaning

/-!
# What can be assembled

The readers hand on parts of events without asking what kind they are of. This file says exactly
which chunks an accumulator can take in and put together, whatever their parts are.

* `Parcel`: what a chunk of a reader is made of;
* `feedChunk_eq_ok_iff`: the parcels that an accumulator can take in;
* `Gathers`: what an accumulator has gathered from parcels, and `Gathers.next`, one more of them;
* `exists_result_iff`: what is gathered makes up a message exactly if all its pieces are texts.
-/

namespace Parley

namespace Value

/-- A value that can be a piece of a text: a text, or anything that does not count. -/
def IsPiece (v : Value) : Prop :=
  v.truthy = true → ∃ s, v = .str s

/-- Values can be joined exactly if they are texts. -/
theorem exists_joinTexts_iff {vs : List Value} :
    (∃ text, joinTexts vs = .ok text) ↔ ∀ v ∈ vs, ∃ s, v = .str s := by
  constructor
  · rintro ⟨text, h⟩
    induction vs generalizing text with
    | nil => simp
    | cons v rest ih =>
      cases v with
      | str s =>
        cases hrest : rest.mapM text? with
        | none => simp [joinTexts, text?, hrest, misuse] at h
        | some texts =>
          have hjoin : joinTexts rest = .ok (String.join texts) := by rw [joinTexts, hrest]
          simpa using ih _ hjoin
      | _ => simp [joinTexts, text?, misuse] at h
  · intro h
    have htexts : ∃ texts : List String, vs = texts.map .str := by
      induction vs with
      | nil => exact ⟨[], rfl⟩
      | cons v rest ih =>
        rcases h v (by simp) with ⟨s, rfl⟩
        rcases ih fun w hw => h w (by simp [hw]) with ⟨texts, rfl⟩
        exact ⟨s :: texts, rfl⟩
    rcases htexts with ⟨texts, rfl⟩
    exact ⟨_, joinTexts_map_str texts⟩

end Value

namespace Stream

/-! ## What a chunk is made of -/

/-- What a reader hands on in a chunk, whatever kind its parts are of: a content, call fragments
with the indices of the first of them, a token report, whether it is the end, and named entries. -/
structure Parcel where
  content : Value := .null
  calls : List ToolCall := []
  indices : List Value := []
  usage : Option TokenUsage := none
  complete : Bool := false
  extra : Fields := []
  unlisted : "tool_call_indices" ∉ extra.map Prod.fst := by simp

namespace Parcel

/-- The chunk of a parcel. Without any indices it has no entry for them. -/
def toMessage (parcel : Parcel) : Message :=
  Reply.chunk parcel.content parcel.calls
    (if parcel.indices.isEmpty then none else some parcel.indices) parcel.usage parcel.complete
    parcel.extra

/-- The call fragments from a position on, each with its index if there is one. -/
def fragmentsFrom (indices : List Value) (position : Nat) (calls : List ToolCall) :
    List (Option Value × ToolCall) :=
  (calls.zipIdx position).map fun c => (indices[c.2]?, c.1)

/-- The call fragments, each with its index if there is one. -/
def fragments (parcel : Parcel) : List (Option Value × ToolCall) :=
  fragmentsFrom parcel.indices 0 parcel.calls

/-- The index of every fragment that has one can serve as a key. -/
def Keyed (parcel : Parcel) : Prop :=
  ∀ f ∈ parcel.fragments, ∀ index ∈ f.1, index.hashable = true

end Parcel

def kept (content : Value) : List Value :=
  if content.truthy then [content] else []

/-- What is kept of a content are texts exactly if the content is a piece of text. -/
theorem forall_mem_kept_iff {content : Value} :
    (∀ v ∈ kept content, ∃ s, v = .str s) ↔ content.IsPiece := by
  by_cases h : content.truthy = true <;> simp [kept, Value.IsPiece, h]

/-! ## Steps that succeed -/

/-- Two steps are taken without a fault exactly if both are. -/
theorem Step.andThen_eq_ok_iff {first second : Step} {a c : Accumulator} :
    first.andThen second a = (c, .ok ()) ↔
      ∃ b, first a = (b, .ok ()) ∧ second b = (c, .ok ()) := by
  unfold Step.andThen
  rcases first a with ⟨b, outcome⟩
  cases outcome with
  | error fault => simp
  | ok x => simp

theorem takeText_eq (content : Value) (a : Accumulator) :
    takeText content a = ({ a with texts := a.texts ++ kept content }, .ok ()) := by
  by_cases h : content.truthy = true <;> simp [takeText, change, kept, h]

def placeFragment (a : Accumulator) (f : Option Value × ToolCall) : Accumulator :=
  match f.1 with
  | some index => { a with calls := mergeFragment (.block index) f.2 a.calls }
  | none =>
    { a with
      calls := mergeFragment (.alone a.unindexed) f.2 a.calls
      unindexed := a.unindexed + 1 }

/-- A list of indices as a chunk has it: null if there are none. -/
def listed (indices : List Value) : Value :=
  if indices.isEmpty then .null else .list indices

/-- The index at a position is the one listed there, if it can be a key. -/
theorem indexAt_listed (indices : List Value) (position : Nat) :
    indexAt (listed indices) position =
      match indices[position]? with
      | some index => if index.hashable then .ok (some index) else misuse .kind
      | none => .ok none := by
  cases indices with
  | nil => simp [indexAt, listed]
  | cons first rest =>
    have hsize : (Value.list (first :: rest)).size = .ok (first :: rest).length := rfl
    have hlisted : listed (first :: rest) = .list (first :: rest) := rfl
    simp only [indexAt, hlisted, Value.isNull_list, Bool.false_eq_true, if_false,
      Outcome.bind_of_ok hsize]
    by_cases hlt : position < (first :: rest).length
    · have hitem : (Value.list (first :: rest)).item position =
          .ok (first :: rest)[position] := by
        have hitems : (Value.list (first :: rest)).items = .ok (first :: rest) := rfl
        rw [Value.item, Outcome.bind_of_ok hitems, List.getElem?_eq_getElem hlt]
        · rfl
        · simp
      simp only [hlt, if_true, Outcome.bind_of_ok hitem, List.getElem?_eq_getElem]
      rfl
    · rw [if_neg hlt, List.getElem?_eq_none (Nat.le_of_not_lt hlt)]
      rfl

/-- A fragment is taken in exactly if its index, in case it has one, can serve as a key. -/
theorem takeFragment_eq_ok_iff {indices : List Value} {position : Nat} {call : ToolCall}
    {a b : Accumulator} :
    takeFragment (listed indices) position call.toValue a = (b, .ok ()) ↔
      (∀ index ∈ indices[position]?, index.hashable = true) ∧
        placeFragment a (indices[position]?, call) = b := by
  rw [takeFragment, indexAt_listed]
  cases hindex : indices[position]? with
  | none => simp [addAlone, addFragment, placeFragment]
  | some index =>
    cases hkey : index.hashable with
    | false => simp [depending, misuse, stop, hkey]
    | true => simp [addFragment, placeFragment, hkey]

/-- Fragments are taken exactly if their indices can be keys, and then each is placed by its own. -/
theorem takeFragments_eq_ok_iff {indices : List Value} {position : Nat} {calls : List ToolCall}
    {a b : Accumulator} :
    takeFragments (listed indices) position (calls.map ToolCall.toValue) a = (b, .ok ()) ↔
      (∀ f ∈ Parcel.fragmentsFrom indices position calls, ∀ index ∈ f.1, index.hashable = true) ∧
        (Parcel.fragmentsFrom indices position calls).foldl placeFragment a = b := by
  induction calls generalizing position a with
  | nil => simp [takeFragments, change, Parcel.fragmentsFrom]
  | cons call rest ih =>
    have hfragments : Parcel.fragmentsFrom indices position (call :: rest) =
        (indices[position]?, call) :: Parcel.fragmentsFrom indices (position + 1) rest := by
      simp [Parcel.fragmentsFrom]
    rw [List.map_cons, takeFragments, Step.andThen_eq_ok_iff, hfragments]
    simp only [takeFragment_eq_ok_iff, ih, List.forall_mem_cons, List.foldl_cons]
    constructor
    · rintro ⟨c, ⟨hfirst, rfl⟩, hrest, rfl⟩
      exact ⟨⟨hfirst, hrest⟩, rfl⟩
    · rintro ⟨⟨hfirst, hrest⟩, rfl⟩
      exact ⟨_, ⟨hfirst, rfl⟩, hrest, rfl⟩

/-- Usage is taken exactly if it can be merged. -/
theorem takeUsage_eq_ok_iff {new : Value} {a b : Accumulator} :
    takeUsage new a = (b, .ok ()) ↔
      ∃ usage, mergeUsage a.usage new = .ok usage ∧ { a with usage := usage } = b := by
  unfold takeUsage
  cases h : mergeUsage a.usage new with
  | error fault => simp [depending, stop]
  | ok usage => simp [change]

/-- The end is taken in exactly if the texts so far can be joined. -/
theorem takeEnd_eq_ok_iff {complete : Bool} {a b : Accumulator} :
    takeEnd (.bool complete) a = (b, .ok ()) ↔
      (complete = true → ∃ text, a.text = .ok text) ∧
        { a with phase := if complete then .completed else a.phase } = b := by
  cases complete with
  | false => simp [change]
  | true =>
    have htext : ({ a with phase := .completed } : Accumulator).text = a.text := rfl
    cases h : a.text with
    | error fault =>
      simp [takeEnd, Value.truthy, Step.andThen, change, depending, stop, htext, h]
    | ok text =>
      simp [takeEnd, Value.truthy, Step.andThen, change, depending, htext, h]

/-! ## Taking in a parcel -/

theorem lookup_unlisted {fields : Fields} (h : "tool_call_indices" ∉ fields.map Prod.fst) :
    fields.present.lookup "tool_call_indices" = none := by
  apply Fields.lookup_of_not_mem
  intro hmem
  rcases List.mem_map.1 hmem with ⟨field, hfield, hkey⟩
  exact h (hkey ▸ List.mem_map_of_mem (List.mem_of_mem_filter hfield))

def Parcel.metadata (parcel : Parcel) : Fields :=
  Reply.chunkMetadata parcel.complete
    (if parcel.indices.isEmpty then none else some parcel.indices) parcel.extra

/-- A chunk lists indices exactly if there are any. -/
theorem lookup_metadata (parcel : Parcel) :
    parcel.metadata.lookup "tool_call_indices" =
      if parcel.indices.isEmpty then none else some (.list parcel.indices) := by
  by_cases h : parcel.indices.isEmpty = true <;>
    simp [Parcel.metadata, Reply.chunkMetadata, List.lookup_cons, h,
      lookup_unlisted parcel.unlisted]

theorem indices_metadata (parcel : Parcel) :
    parcel.metadata.value "tool_call_indices" = listed parcel.indices := by
  rw [Fields.value, Fields.valueOr, lookup_metadata, listed]
  split <;> rfl

/-- A chunk is complete if its parcel is. -/
theorem Parcel.isComplete_toMessage (parcel : Parcel) :
    parcel.toMessage.isComplete = .ok parcel.complete := by
  have hmetadata : parcel.toMessage.metadata = .dict parcel.metadata := rfl
  -- the flag stands in front of the other entries, so nothing hides it
  have hflag : parcel.metadata.value "is_complete" = .bool parcel.complete := by
    by_cases h : parcel.indices.isEmpty = true <;> simp [Parcel.metadata, Reply.chunkMetadata, h]
  rw [Message.isComplete, Message.flag, hmetadata, get_dict, hflag]
  rfl

/-- The entries of an accumulator after it has been told of one that may be null. -/
def remembered (named : Fields) (key : String) (v : Value) : Fields :=
  if v.isNull then named else Fields.put named key v

/-- An accumulator with a parcel taken in, given what becomes of the usage. -/
def Parcel.addTo (parcel : Parcel) (a : Accumulator) (usage : Value) : Accumulator :=
  let texted : Accumulator :=
    { a with phase := .streaming, texts := a.texts ++ kept parcel.content }
  let called := parcel.fragments.foldl placeFragment texted
  { called with
    phase := if parcel.complete then .completed else called.phase
    usage := usage
    named := remembered (remembered called.named "model" (parcel.metadata.value "model"))
      "finish_reason" (parcel.metadata.value "finish_reason") }

/-- Fragments are put among the calls, and nothing else changes. -/
theorem rest_foldl_placeFragment (fragments : List (Option Value × ToolCall)) (a : Accumulator) :
    (fragments.foldl placeFragment a).texts = a.texts ∧
      (fragments.foldl placeFragment a).usage = a.usage ∧
      (fragments.foldl placeFragment a).phase = a.phase ∧
      (fragments.foldl placeFragment a).named = a.named := by
  induction fragments generalizing a with
  | nil => exact ⟨rfl, rfl, rfl, rfl⟩
  | cons f rest ih =>
    rcases f with ⟨index, call⟩
    cases index with
    | none => exact ih (placeFragment a (none, call))
    | some index => exact ih (placeFragment a (some index, call))

/-- A parcel is taken in exactly if its indices can serve as keys, its report can be merged with
those before it, and, in case it is the end, all texts so far can be joined. -/
theorem feedChunk_eq_ok_iff {parcel : Parcel} {a b : Accumulator} (hopen : a.isComplete = false) :
    feedChunk a parcel.toMessage.toValue = .ok b ↔
      parcel.Keyed ∧
        (parcel.complete = true →
          ∃ text, Value.joinTexts (a.texts ++ kept parcel.content) = .ok text) ∧
        ∃ usage, mergeUsage a.usage (usageValue parcel.usage) = .ok usage ∧
          parcel.addTo a usage = b := by
  have hnull : parcel.toMessage.toValue.isNull = false := rfl
  have hfeed : feedChunk a parcel.toMessage.toValue = .ok b ↔
      take parcel.toMessage.toValue { a with phase := .streaming } = (b, .ok ()) := by
    simp only [feedChunk, feed, hnull, hopen, Bool.false_eq_true, if_false]
    rcases take parcel.toMessage.toValue { a with phase := .streaming } with ⟨c, outcome⟩
    cases outcome <;> simp
  have htexts := rest_foldl_placeFragment parcel.fragments
    { a with phase := .streaming, texts := a.texts ++ kept parcel.content }
  have hindices : (Reply.chunkMetadata parcel.complete
      (if parcel.indices.isEmpty then none else some parcel.indices) parcel.extra).value
        "tool_call_indices" = listed parcel.indices := indices_metadata parcel
  rw [hfeed, Parcel.toMessage, take_chunk, hindices]
  simp only [Step.andThen_eq_ok_iff, takeText_eq, takeFragments_eq_ok_iff, takeUsage_eq_ok_iff,
    takeEnd_eq_ok_iff, remember_eq, Prod.mk.injEq, and_true]
  obtain ⟨htexts, husages, -⟩ := htexts
  -- the fragments change neither the texts nor the usage, so the later steps see those from before
  constructor
  · rintro ⟨_, rfl, _, ⟨hkeyed, rfl⟩, _, ⟨usage, husage, rfl⟩, _, rfl, _, rfl, hend, rfl⟩
    rw [Parcel.fragments] at htexts husages
    rw [husages] at husage
    simp only [Accumulator.text, htexts] at hend
    exact ⟨hkeyed, hend, usage, husage, rfl⟩
  · rintro ⟨hkeyed, hend, usage, husage, rfl⟩
    rw [Parcel.fragments] at htexts husages
    refine ⟨_, rfl, _, ⟨hkeyed, rfl⟩, _, ⟨usage, ?_, rfl⟩, _, rfl, _, rfl, ?_, rfl⟩
    · rw [husages]
      exact husage
    · simpa only [Accumulator.text, htexts] using hend

/-! ## What is gathered -/

def Parcel.pieces (parcel : Parcel) : List Value :=
  parcel.calls.flatMap fun call => kept call.arguments

def piecesOf (calls : List (CallKey × PendingCall)) : List Value :=
  calls.flatMap fun c => c.2.fragments

/-- Merging a fragment adds its arguments to the pieces, and loses none. -/
theorem mem_piecesOf_mergeFragment {key : CallKey} {fragment : ToolCall} {v : Value}
    {calls : List (CallKey × PendingCall)} :
    v ∈ piecesOf (mergeFragment key fragment calls) ↔
      v ∈ piecesOf calls ∨ v ∈ kept fragment.arguments := by
  induction calls with
  | nil => simp [mergeFragment, piecesOf, PendingCall.start, PendingCall.pieces, kept]
  | cons c rest ih =>
    rcases c with ⟨k, call⟩
    simp only [piecesOf] at ih
    cases hsame : k.same key with
    | true =>
      simp only [mergeFragment, hsame, if_true, piecesOf, List.flatMap_cons, PendingCall.extend,
        List.mem_append]
      exact or_right_comm
    | false =>
      simp only [mergeFragment, hsame, Bool.false_eq_true, if_false, piecesOf, List.flatMap_cons,
        List.mem_append, ih, or_assoc]

theorem mem_piecesOf_placeFragment {f : Option Value × ToolCall} {v : Value} {a : Accumulator} :
    v ∈ piecesOf (placeFragment a f).calls ↔ v ∈ piecesOf a.calls ∨ v ∈ kept f.2.arguments := by
  rcases f with ⟨index, call⟩
  cases index <;> exact mem_piecesOf_mergeFragment

/-- Wherever fragments are put, their pieces are kept, and no others. -/
theorem mem_piecesOf_foldl {fragments : List (Option Value × ToolCall)} {v : Value}
    {a : Accumulator} :
    v ∈ piecesOf (fragments.foldl placeFragment a).calls ↔
      v ∈ piecesOf a.calls ∨ v ∈ fragments.flatMap fun f => kept f.2.arguments := by
  induction fragments generalizing a with
  | nil => simp
  | cons f rest ih =>
    rw [List.foldl_cons, ih, mem_piecesOf_placeFragment, List.flatMap_cons, List.mem_append,
      or_assoc]

/-- The pieces of a parcel are the arguments that its fragments bring. -/
theorem pieces_eq (parcel : Parcel) :
    parcel.pieces = parcel.fragments.flatMap fun f => kept f.2.arguments := by
  rw [Parcel.fragments, Parcel.fragmentsFrom, List.flatMap_map, Parcel.pieces]
  have hcalls : parcel.calls = parcel.calls.zipIdx.map Prod.fst := by simp
  conv_lhs => rw [hcalls, List.flatMap_map]

/-- What an accumulator has gathered from parcels: their texts and their pieces of arguments, as far
as they count, and their reports merged. -/
structure Gathers (a : Accumulator) (parcels : List Parcel) : Prop where
  texts : a.texts = parcels.flatMap fun parcel => kept parcel.content
  pieces : ∀ v, v ∈ piecesOf a.calls ↔ v ∈ parcels.flatMap Parcel.pieces
  usage : ∃ total, TokenUsage.mergeAll (parcels.filterMap Parcel.usage) = .ok total ∧
    a.usage = usageValue total

theorem gathers_empty : Gathers .empty [] where
  texts := rfl
  pieces := by simp [piecesOf, Accumulator.empty]
  usage := ⟨none, rfl, rfl⟩

/-- A report can be merged with those before it exactly if all of them can be merged. -/
theorem mergeUsage_eq_ok_iff {reports : List TokenUsage} {total new : Option TokenUsage} {v : Value}
    (h : TokenUsage.mergeAll reports = .ok total) :
    mergeUsage (usageValue total) (usageValue new) = .ok v ↔
      ∃ merged, TokenUsage.mergeAll (reports ++ new.toList) = .ok merged ∧
        usageValue merged = v := by
  cases new with
  | none => simp [mergeUsage, usageValue, h]
  | some new =>
    cases total with
    | none =>
      cases TokenUsage.eq_nil_of_mergeAll h
      simp [mergeUsage, usageValue, TokenUsage.mergeAll_singleton, TokenUsage.toValue, Value.isNull]
    | some old =>
      have hmerge : mergeUsage old.toValue new.toValue =
          (do return (← old.merge new).toValue) := rfl
      rw [Option.toList_some, TokenUsage.mergeAll_concat new h]
      simp only [usageValue, hmerge, Outcome.bind_eq_ok_iff]
      constructor
      · rintro ⟨merged, hmerged, ⟨⟩⟩
        exact ⟨some merged, ⟨merged, hmerged, rfl⟩, rfl⟩
      · rintro ⟨_, ⟨merged, hmerged, ⟨⟩⟩, rfl⟩
        exact ⟨merged, hmerged, rfl⟩

/-- An accumulator that has taken in one more parcel has gathered what that one adds. -/
theorem Gathers.next {a : Accumulator} {parcels : List Parcel} {parcel : Parcel} {usage : Value}
    (h : Gathers a parcels)
    (husage : mergeUsage a.usage (usageValue parcel.usage) = .ok usage) :
    Gathers (parcel.addTo a usage) (parcels ++ [parcel]) where
  texts := by
    rw [Parcel.addTo]
    simp [(rest_foldl_placeFragment _ _).1, h.texts]
  pieces := by
    intro v
    have hadded : v ∈ piecesOf (parcel.addTo a usage).calls ↔ _ := mem_piecesOf_foldl
    rw [hadded, h.pieces, List.flatMap_append, List.mem_append, List.flatMap_singleton, pieces_eq]
  usage := by
    rcases h.usage with ⟨total, htotal, hcurrent⟩
    rw [hcurrent, mergeUsage_eq_ok_iff htotal] at husage
    rcases husage with ⟨merged, hmerged, rfl⟩
    refine ⟨merged, ?_, rfl⟩
    cases hreport : parcel.usage <;> simpa [hreport] using hmerged

/-! ## The result -/

/-- A call can be finished exactly if all pieces of its arguments are texts. -/
theorem exists_finish_iff {call : PendingCall} :
    (∃ finished, call.finish = .ok finished) ↔ ∀ v ∈ call.fragments, ∃ s, v = .str s := by
  rw [← Value.exists_joinTexts_iff]
  constructor
  · rintro ⟨finished, h⟩
    rcases Outcome.of_bind_eq_ok h with ⟨arguments, harguments, -⟩
    exact ⟨arguments, harguments⟩
  · rintro ⟨arguments, harguments⟩
    exact ⟨_, Outcome.bind_of_ok harguments⟩

/-- Parcels of which a message can be put together: all their pieces are texts, their indices can
serve as keys, and their reports have a merge. -/
structure Assemblable (parcels : List Parcel) : Prop where
  texts : ∀ parcel ∈ parcels, parcel.content.IsPiece
  arguments : ∀ parcel ∈ parcels, ∀ call ∈ parcel.calls, call.arguments.IsPiece
  keyed : ∀ parcel ∈ parcels, parcel.Keyed
  usage : ∃ total, TokenUsage.mergeAll (parcels.filterMap Parcel.usage) = .ok total

/-- What is gathered has a text exactly if all contents are pieces of one. -/
theorem Gathers.exists_text_iff {a : Accumulator} {parcels : List Parcel} (h : Gathers a parcels) :
    (∃ text, a.text = .ok text) ↔ ∀ parcel ∈ parcels, parcel.content.IsPiece := by
  rw [Accumulator.text, Value.exists_joinTexts_iff, h.texts]
  simp only [List.forall_mem_flatMap, forall_mem_kept_iff]

/-- What is gathered makes up a message exactly if all contents and all arguments are pieces of
texts. -/
theorem Gathers.exists_result_iff {a : Accumulator} {parcels : List Parcel}
    (h : Gathers a parcels) :
    (∃ m, a.result = .ok m) ↔ (∀ parcel ∈ parcels, parcel.content.IsPiece) ∧
      ∀ parcel ∈ parcels, ∀ call ∈ parcel.calls, call.arguments.IsPiece := by
  have hcalls : (∃ calls, a.calls.mapM (fun c => c.2.finish) = .ok calls) ↔
      ∀ parcel ∈ parcels, ∀ call ∈ parcel.calls, call.arguments.IsPiece := by
    have hpieces : (∀ v ∈ piecesOf a.calls, ∃ s, v = .str s) ↔
        ∀ v ∈ parcels.flatMap Parcel.pieces, ∃ s, v = .str s := by
      simp only [h.pieces]
    simp only [Outcome.exists_mapM_iff, exists_finish_iff]
    simp only [piecesOf, Parcel.pieces, List.forall_mem_flatMap, forall_mem_kept_iff] at hpieces
    exact hpieces
  rw [← h.exists_text_iff, ← hcalls]
  constructor
  · rintro ⟨m, hm⟩
    rcases Outcome.of_bind_eq_ok hm with ⟨text, htext, hm⟩
    rcases Outcome.of_bind_eq_ok hm with ⟨calls, hfinish, -⟩
    exact ⟨⟨text, htext⟩, calls, hfinish⟩
  · rintro ⟨⟨text, htext⟩, calls, hfinish⟩
    exact ⟨_, (Outcome.bind_of_ok htext).trans (Outcome.bind_of_ok hfinish)⟩

end Stream

end Parley
