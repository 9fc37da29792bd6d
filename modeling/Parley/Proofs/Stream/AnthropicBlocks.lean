import Parley.Proofs.Stream.AnthropicEvents
import Parley.Proofs.Stream.Events
import Parley.Proofs.Stream.Parcels

/-!
# The blocks of a stream and its calls

A stream of the messages service opens content blocks of any type and continues them by their
indices. A tool block makes a call, under its id and name and with the argument text that its pieces
make up. But a piece of an argument text is read without knowing what was opened at its index, so
pieces of a block of another type make a call too, one without an id and a name.

* `Move`, `Makes`: what an event of a stream does;
* `Shaped`: blocks are opened once, and before they are continued;
* `callsFrom`: the calls of a stream, in the order of their first appearance;
* `toolBlockCalls`: the calls of its tool blocks;
* `calls_of_events`: what is assembled of a stream, and when it has the calls of its tool blocks.
-/

namespace Parley.Stream.Anthropic

open Parley.Anthropic

/-! ## Streams of blocks -/

/-- What an event of a stream does: it opens a block, adds to one, reports counts or a reason, ends
the message, or does nothing. -/
inductive Move where
  | opensTool (index : Nat) (id name : String)
  | opensOther (index : Nat)
  | addsText (index : Nat) (piece : String)
  | addsInput (index : Nat) (piece : String)
  | addsOther (index : Nat)
  | reports
  | ends
  | nothing

/-- An event does what a move says. Blocks and deltas may be of any type. -/
inductive Makes (event : Value) : Move → Prop where
  | opensTool {index : Nat} {id name : String} (opens : OpensTool event index id name) :
      Makes event (.opensTool index id name)
  | opensOther {index : Nat} (type : event.read "type" = .str "content_block_start")
      (place : event.read "index" = .int index)
      (block : ((event.read "content_block").read "type").isText "tool_use" = false) :
      Makes event (.opensOther index)
  | addsText {index : Nat} {piece : String} (adds : AddsText event index piece) :
      Makes event (.addsText index piece)
  | addsInput {index : Nat} {piece : String} (adds : AddsInput event index piece) :
      Makes event (.addsInput index piece)
  | addsOther {index : Nat} (type : event.read "type" = .str "content_block_delta")
      (place : event.read "index" = .int index)
      (text : ((event.read "delta").read "type").isText "text_delta" = false)
      (input : ((event.read "delta").read "type").isText "input_json_delta" = false) :
      Makes event (.addsOther index)
  | starts (type : event.read "type" = .str "message_start")
      (counts : Counts ((event.read "message").read "usage")) : Makes event .reports
  | finishes (type : event.read "type" = .str "message_delta")
      (counts : Counts (event.read "usage")) : Makes event .reports
  | ends (stops : Ends event) : Makes event .ends
  | nothing (silent : carries event = false) : Makes event .nothing

/-- Every block is opened once and before anything is added to it, and nothing follows the end.
The blocks at the given indices are open already. -/
def Shaped (opened : List Nat) : List Move → Prop
  | [] => True
  | .opensTool index _ _ :: rest => index ∉ opened ∧ Shaped (index :: opened) rest
  | .opensOther index :: rest => index ∉ opened ∧ Shaped (index :: opened) rest
  | .addsText index _ :: rest => index ∈ opened ∧ Shaped opened rest
  | .addsInput index _ :: rest => index ∈ opened ∧ Shaped opened rest
  | .addsOther index :: rest => index ∈ opened ∧ Shaped opened rest
  | .ends :: rest => rest = []
  | .reports :: rest => Shaped opened rest
  | .nothing :: rest => Shaped opened rest

/-! ## The calls of a stream -/

/-- The argument text that is added to the block at an index. -/
def inputAt (index : Nat) : List Move → String
  | [] => ""
  | .addsInput other piece :: rest =>
    if other = index then piece ++ inputAt index rest else inputAt index rest
  | _ :: rest => inputAt index rest

/-- A call with an argument text, which is that of the empty object if nothing was added. -/
def callWith (id name text : String) : TextCall :=
  ⟨id, name, if text = "" then "{}" else text⟩

/-- The calls of a stream, in the order of their first appearance: one for each tool block, and one
without an id and a name for each other block to which an argument text is added. Those at the given
indices have appeared already. -/
def callsFrom (seen : List Nat) : List Move → List TextCall
  | [] => []
  | .opensTool index id name :: rest =>
    callWith id name (inputAt index rest) :: callsFrom (index :: seen) rest
  | .addsInput index piece :: rest =>
    if piece = "" ∨ index ∈ seen then callsFrom seen rest
    else callWith "" "" (piece ++ inputAt index rest) :: callsFrom (index :: seen) rest
  | _ :: rest => callsFrom seen rest

/-- The calls of the tool blocks of a stream, one for each, in their order. -/
def toolBlockCalls : List Move → List TextCall
  | [] => []
  | .opensTool index id name :: rest => callWith id name (inputAt index rest) :: toolBlockCalls rest
  | _ :: rest => toolBlockCalls rest

def OnlyToTools (moves : List Move) : Prop :=
  ∀ index piece, .addsInput index piece ∈ moves → piece ≠ "" →
    ∃ id name, .opensTool index id name ∈ moves

def Move.fragments : Move → List Fragment
  | .opensTool index id name => [⟨some (index : Int), ⟨id, name, ""⟩⟩]
  | .addsInput index piece => if piece = "" then [] else [⟨some (index : Int), ⟨"", "", piece⟩⟩]
  | _ => []

def Move.complete : Move → Bool
  | .ends => true
  | _ => false

/-! ## Reading the events -/

section Reading

variable {event : Value}

/-- An event that hands out a chunk is read as the delta that the chunk brings. -/
theorem reads_of_some {m : Message} {delta : Delta} (h : chunkOf event = .ok (some m))
    (hbrings : Brings m delta) : Reads .anthropic event delta := by
  have hread : Vendor.anthropic.readEvent event = .ok (.chunk m) := by
    rw [Vendor.readEvent, h]
    rfl
  exact .chunk hread hbrings

/-- An event that hands out none is read as nothing new. -/
theorem reads_of_none (h : chunkOf event = .ok none) : Reads .anthropic event {} := by
  have hread : Vendor.anthropic.readEvent event = .ok .nothing := by
    rw [Vendor.readEvent, h]
    rfl
  exact .nothing hread ⟨rfl, rfl, rfl, rfl, rfl, rfl⟩

/-- An event brings the call fragments of what it does. -/
theorem exists_reads {move : Move} (h : Makes event move) :
    ∃ delta, Reads .anthropic event delta ∧ delta.fragments = move.fragments ∧
      delta.complete = move.complete := by
  cases h with
  | @opensTool index id name opens =>
    refine ⟨{ calls := [⟨id, name, ""⟩], indices := [index] }, ?_, rfl, rfl⟩
    apply reads_of_some (chunkOf_opensTool opens)
    exact brings_chunk { calls := [⟨id, name, ""⟩], indices := [index] } (.inl rfl) (.inr rfl)
      (by simp) (by simp) rfl rfl rfl
  | opensOther type place block =>
    refine ⟨{}, reads_of_none ?_, rfl, rfl⟩
    have hchunk : chunkOf event = blockChunk event := by simp [chunkOf, type, Value.isText]
    rw [hchunk, blockChunk]
    simp only [block, Bool.not_false, if_true]
  | @addsText index piece adds =>
    refine ⟨{ text := piece }, ?_, rfl, rfl⟩
    apply reads_of_some (chunkOf_addsText adds)
    exact brings_chunk { text := piece } (.inl rfl) (.inl ⟨rfl, rfl⟩) (by simp) (by simp) rfl rfl
      rfl
  | @addsInput index piece adds =>
    by_cases hpiece : piece = ""
    · subst hpiece
      exact ⟨{}, reads_of_none (chunkOf_addsNoInput adds), rfl, rfl⟩
    · refine ⟨{ calls := [⟨"", "", piece⟩], indices := [index] }, ?_, ?_, rfl⟩
      · apply reads_of_some (chunkOf_addsInput adds hpiece)
        exact brings_chunk { calls := [⟨"", "", piece⟩], indices := [index] } (.inl rfl) (.inr rfl)
          (by simp) (by simp) rfl rfl rfl
      · simp [Move.fragments, hpiece, Delta.fragments, Delta.fragmentsFrom]
  | addsOther type place text input =>
    refine ⟨{}, reads_of_none ?_, rfl, rfl⟩
    have hchunk : chunkOf event = deltaChunk event := by simp [chunkOf, type, Value.isText]
    rw [hchunk, deltaChunk]
    simp only [text, input, Bool.false_eq_true, if_false]
  | starts type counts =>
    rcases exists_usageOf counts with ⟨reported, hreported, hcounted⟩
    have hchunk : chunkOf event = startChunk event := by simp [chunkOf, type]
    rw [startChunk, Outcome.bind_of_ok hreported] at hchunk
    cases reported with
    | none => exact ⟨{}, reads_of_none hchunk, rfl, rfl⟩
    | some usage =>
      refine ⟨{ usage := some usage, model := (event.read "message").read "model" }, ?_, rfl, rfl⟩
      apply reads_of_some hchunk
      exact brings_chunk { usage := some usage, model := (event.read "message").read "model" }
        (.inr ⟨rfl, rfl⟩) (.inl ⟨rfl, rfl⟩) hcounted (by simp) rfl rfl rfl
  | finishes type counts =>
    rcases exists_usageOf counts with ⟨reported, hreported, hcounted⟩
    have hchunk : chunkOf event = finalChunk event := by simp [chunkOf, type, Value.isText]
    rw [finalChunk, Outcome.bind_of_ok hreported] at hchunk
    dsimp only at hchunk
    split at hchunk
    · exact ⟨{}, reads_of_none hchunk, rfl, rfl⟩
    · refine ⟨{ usage := reported, finishReason := (event.read "delta").read "stop_reason" }, ?_,
        rfl, rfl⟩
      apply reads_of_some hchunk
      exact brings_chunk
        { usage := reported, finishReason := (event.read "delta").read "stop_reason" }
        (.inr ⟨rfl, rfl⟩) (.inl ⟨rfl, rfl⟩) hcounted (by simp) rfl rfl rfl
  | ends stops =>
    refine ⟨{ complete := true }, ?_, rfl, rfl⟩
    apply reads_of_some (chunkOf_ends stops)
    exact brings_chunk { complete := true } (.inl rfl) (.inl ⟨rfl, rfl⟩) (by simp) (by simp) rfl rfl
      rfl
  | nothing silent => exact ⟨{}, reads_of_none (chunkOf_of_not_carries silent), rfl, rfl⟩

end Reading

/-- Events bring the call fragments of what they do. -/
theorem exists_deltas {events : List Value} {moves : List Move}
    (h : List.Forall₂ Makes events moves) :
    ∃ deltas, List.Forall₂ (Reads .anthropic) events deltas ∧
      deltas.flatMap Delta.fragments = moves.flatMap Move.fragments ∧
      deltas.map Delta.complete = moves.map Move.complete := by
  induction h with
  | nil => exact ⟨[], .nil, rfl, rfl⟩
  | cons hfirst _ ih =>
    rcases exists_reads hfirst with ⟨delta, hread, hfragments, hcomplete⟩
    rcases ih with ⟨deltas, hreads, hall, hends⟩
    refine ⟨delta :: deltas, .cons hread hreads, ?_, ?_⟩
    · rw [List.flatMap_cons, List.flatMap_cons, hfragments, hall]
    · rw [List.map_cons, List.map_cons, hcomplete, hends]

/-! ## The shape of a stream -/

/-- What follows a move in a shaped stream is shaped. -/
theorem Shaped.tail {opened : List Nat} {move : Move} {rest : List Move}
    (h : Shaped opened (move :: rest)) : ∃ next, opened ⊆ next ∧ Shaped next rest := by
  cases move with
  | opensTool index id name => exact ⟨index :: opened, List.subset_cons_self index opened, h.2⟩
  | opensOther index => exact ⟨index :: opened, List.subset_cons_self index opened, h.2⟩
  | addsText index piece => exact ⟨opened, List.Subset.refl opened, h.2⟩
  | addsInput index piece => exact ⟨opened, List.Subset.refl opened, h.2⟩
  | addsOther index => exact ⟨opened, List.Subset.refl opened, h.2⟩
  | reports => exact ⟨opened, List.Subset.refl opened, h⟩
  | nothing => exact ⟨opened, List.Subset.refl opened, h⟩
  | ends =>
    cases h
    exact ⟨opened, List.Subset.refl opened, trivial⟩

/-- Only the last move can end the message. -/
theorem open_of_shaped {opened : List Nat} {moves : List Move} (hshape : Shaped opened moves) :
    ∀ move ∈ moves.dropLast, move.complete = false := by
  induction moves generalizing opened with
  | nil =>
    intro move hmove
    cases hmove
  | cons first rest ih =>
    cases rest with
    | nil => simp
    | cons second later =>
      rcases hshape.tail with ⟨next, -, hrest⟩
      rw [List.dropLast_cons_cons]
      refine List.forall_mem_cons.2 ⟨?_, ih hrest⟩
      cases first with
      | ends => cases hshape
      | _ => rfl

/-- A block that is open is not opened a second time. -/
theorem not_opened_again {opened : List Nat} {moves : List Move} {index : Nat} (id name : String)
    (hshape : Shaped opened moves) (hopen : index ∈ opened) :
    .opensTool index id name ∉ moves := by
  induction moves generalizing opened with
  | nil => exact List.not_mem_nil
  | cons move rest ih =>
    intro hmem
    rcases List.mem_cons.1 hmem with rfl | hmem
    · exact hshape.1 hopen
    · rcases hshape.tail with ⟨next, hnext, hrest⟩
      exact ih hrest (hnext hopen) hmem

/-! ## The fragments at an index -/

/-- What is added to a block after its opening has no id and no name. -/
theorem unnamed_of_shaped {opened : List Nat} {moves : List Move} {index : Nat}
    (hshape : Shaped opened moves) (hopen : index ∈ opened) :
    ∀ f ∈ moves.flatMap Move.fragments, f.index = some (index : Int) →
      f.call.id = "" ∧ f.call.name = "" := by
  intro f hf hindex
  rcases List.mem_flatMap.1 hf with ⟨move, hmove, hf⟩
  cases move with
  | opensTool other id name =>
    cases List.mem_singleton.1 hf
    have heq : other = index := by simpa using hindex
    exact absurd (heq ▸ hmove) (not_opened_again id name hshape hopen)
  | addsInput other piece =>
    by_cases hpiece : piece = ""
    · simp [Move.fragments, hpiece] at hf
    · simp only [Move.fragments, hpiece, if_false, List.mem_singleton] at hf
      rw [hf]
      exact ⟨rfl, rfl⟩
  | _ => cases hf

/-- The fragments at an index make up the argument text that is added to its block. -/
theorem join_arguments (index : Nat) (moves : List Move) :
    String.join (((moves.flatMap Move.fragments).filter fun f => f.index == some (index : Int)).map
      fun f => f.call.arguments) = inputAt index moves := by
  induction moves with
  | nil => rfl
  | cons move rest ih =>
    rw [List.flatMap_cons, List.filter_append, List.map_append, String.join_append, ih]
    cases move with
    | opensTool other id name =>
      by_cases h : other = index <;> simp [Move.fragments, inputAt, h]
    | addsInput other piece =>
      by_cases hpiece : piece = "" <;> by_cases h : other = index <;>
        simp [Move.fragments, inputAt, hpiece, h]
    | _ => simp [Move.fragments, inputAt]

/-- A fragment at an open index and all that is added there make up a call. -/
theorem whole_at {opened : List Nat} {rest : List Move} {index : Nat} (call : TextCall)
    (hshape : Shaped opened rest) (hopen : index ∈ opened) :
    whole (⟨some (index : Int), call⟩ ::
        (rest.flatMap Move.fragments).filter fun f => f.index == some (index : Int)) =
      callWith call.id call.name (call.arguments ++ inputAt index rest) := by
  have hunnamed : ∀ f ∈
      (rest.flatMap Move.fragments).filter (fun f => f.index == some (index : Int)),
      f.call.id = "" ∧ f.call.name = "" := by
    intro f hf
    rcases List.mem_filter.1 hf with ⟨hmem, hindex⟩
    exact unnamed_of_shaped hshape hopen f hmem (by simpa using hindex)
  have hid : ∀ text ∈ ((rest.flatMap Move.fragments).filter
      fun f => f.index == some (index : Int)).map (fun f => f.call.id), text = "" := by
    intro text htext
    rcases List.mem_map.1 htext with ⟨f, hf, rfl⟩
    exact (hunnamed f hf).1
  have hname : ∀ text ∈ ((rest.flatMap Move.fragments).filter
      fun f => f.index == some (index : Int)).map (fun f => f.call.name), text = "" := by
    intro text htext
    rcases List.mem_map.1 htext with ⟨f, hf, rfl⟩
    exact (hunnamed f hf).2
  simp only [whole, List.map_cons, firstText_of_first fun _ => hid,
    firstText_of_first fun _ => hname, String.join_cons, join_arguments, callWith]

def unseen (seen : List Nat) (f : Fragment) : Bool :=
  seen.all fun index => f.index != some (index : Int)

/-- The first fragment at an index starts a group, which all others at the index join. -/
theorem groups_unseen {seen : List Nat} {index : Nat} (hnew : index ∉ seen) (call : TextCall)
    (fragments : List Fragment) :
    groups ((⟨some (index : Int), call⟩ :: fragments).filter (unseen seen)) =
      (⟨some (index : Int), call⟩ :: fragments.filter fun f => f.index == some (index : Int)) ::
        groups (fragments.filter (unseen (index :: seen))) := by
  have hother : ∀ other ∈ seen, (index : Int) ≠ (other : Int) := by
    intro other hmem heq
    exact hnew (by rwa [Int.ofNat_inj.1 heq])
  have hkept : unseen seen ⟨some (index : Int), call⟩ = true := by
    simpa [unseen, List.all_eq_true] using hother
  have hjoins : Fragment.joins ⟨some (index : Int), call⟩ =
      fun f => f.index == some (index : Int) := by
    funext f
    simp [Fragment.joins, Bool.beq_comm]
  have hjoined : (fragments.filter (unseen seen)).filter
      (Fragment.joins ⟨some (index : Int), call⟩) =
        fragments.filter fun f => f.index == some (index : Int) := by
    rw [List.filter_filter, hjoins]
    apply List.filter_congr
    intro f _
    by_cases hf : f.index = some (index : Int)
    · simpa [unseen, List.all_eq_true, hf] using hother
    · simp [hf]
  have hothers : Fragment.others ⟨some (index : Int), call⟩ (fragments.filter (unseen seen)) =
      fragments.filter (unseen (index :: seen)) := by
    rw [Fragment.others, List.filter_filter, hjoins]
    rfl
  rw [List.filter_cons_of_pos hkept, groups, hjoined, hothers]

/-- The fragments of a stream make up its calls. -/
theorem map_whole_groups {opened seen : List Nat} {moves : List Move}
    (hseen : seen ⊆ opened) (hshape : Shaped opened moves) :
    (groups ((moves.flatMap Move.fragments).filter (unseen seen))).map whole =
      callsFrom seen moves := by
  -- what has appeared is open, so a block that is opened is new
  induction moves generalizing opened seen with
  | nil => simp [groups, callsFrom]
  | cons move rest ih =>
    rw [List.flatMap_cons]
    cases move with
    | opensTool index id name =>
      have hnew : index ∉ seen := fun hmem => hshape.1 (hseen hmem)
      have hlater : index :: seen ⊆ index :: opened := List.cons_subset_cons index hseen
      rw [Move.fragments, List.singleton_append, groups_unseen hnew, List.map_cons,
        whole_at _ hshape.2 List.mem_cons_self, ih hlater hshape.2, callsFrom]
      rw [String.empty_append]
    | opensOther index =>
      exact ih (List.subset_cons_of_subset index hseen) hshape.2
    | addsInput index piece =>
      rw [callsFrom]
      by_cases hpiece : piece = ""
      · rw [if_pos (.inl hpiece)]
        simpa [Move.fragments, hpiece] using ih hseen hshape.2
      · by_cases hmem : index ∈ seen
        · have hdropped : unseen seen ⟨some (index : Int), ⟨"", "", piece⟩⟩ = false := by
            simpa [unseen, List.all_eq_false] using hmem
          rw [if_pos (.inr hmem)]
          simpa [Move.fragments, hpiece, hdropped] using ih hseen hshape.2
        · have hlater : index :: seen ⊆ opened := List.cons_subset.2 ⟨hshape.1, hseen⟩
          have hfragments : Move.fragments (.addsInput index piece) =
              [⟨some (index : Int), ⟨"", "", piece⟩⟩] := by
            simp [Move.fragments, hpiece]
          rw [if_neg (by tauto), hfragments, List.singleton_append, groups_unseen hmem,
            List.map_cons, whole_at _ hshape.2 hshape.1, ih hlater hshape.2]
    | addsText index piece => exact ih hseen hshape.2
    | addsOther index => exact ih hseen hshape.2
    | reports => exact ih hseen hshape
    | nothing => exact ih hseen hshape
    | ends =>
      cases hshape
      simp [Move.fragments, groups, callsFrom]

/-! ## Calls and tool blocks -/

/-- There are at least as many calls as blocks for them. -/
theorem length_toolBlockCalls_le (seen : List Nat) (moves : List Move) :
    (toolBlockCalls moves).length ≤ (callsFrom seen moves).length := by
  induction moves generalizing seen with
  | nil => exact le_rfl
  | cons move rest ih =>
    cases move with
    | opensTool index id name => exact Nat.succ_le_succ (ih (index :: seen))
    | addsInput index piece =>
      rw [callsFrom]
      split
      · exact ih seen
      · exact Nat.le_succ_of_le (ih (index :: seen))
    | _ => exact ih seen

/-- The calls of a stream are those of its tool blocks exactly if argument texts are added to tool
blocks only, which may be among those that have appeared. -/
theorem callsFrom_eq_iff {opened seen : List Nat} {moves : List Move}
    (hseen : seen ⊆ opened) (hshape : Shaped opened moves) :
    callsFrom seen moves = toolBlockCalls moves ↔
      ∀ index piece, .addsInput index piece ∈ moves → piece ≠ "" →
        index ∈ seen ∨ ∃ id name, .opensTool index id name ∈ moves := by
  induction moves generalizing opened seen with
  | nil => simp [callsFrom, toolBlockCalls]
  | cons move rest ih =>
    cases move with
    | opensTool index id name =>
      have hlater : index :: seen ⊆ index :: opened := List.cons_subset_cons index hseen
      rw [callsFrom, toolBlockCalls, List.cons_inj_right, ih hlater hshape.2]
      constructor
      · intro h other piece hmem hpiece
        rcases h other piece (by simpa using hmem) hpiece with hother | ⟨otherId, otherName, hother⟩
        · rcases List.mem_cons.1 hother with rfl | hother
          · exact .inr ⟨id, name, List.mem_cons_self⟩
          · exact .inl hother
        · exact .inr ⟨otherId, otherName, List.mem_cons_of_mem _ hother⟩
      · intro h other piece hmem hpiece
        rcases h other piece (List.mem_cons_of_mem _ hmem) hpiece with
          hother | ⟨otherId, otherName, hother⟩
        · exact .inl (List.mem_cons_of_mem index hother)
        · rcases List.mem_cons.1 hother with heq | hother
          · cases heq
            exact .inl List.mem_cons_self
          · exact .inr ⟨otherId, otherName, hother⟩
    | addsInput index piece =>
      have hskipped : toolBlockCalls (.addsInput index piece :: rest) = toolBlockCalls rest := rfl
      rw [callsFrom, hskipped]
      by_cases hskip : piece = "" ∨ index ∈ seen
      · rw [if_pos hskip, ih hseen hshape.2]
        constructor
        · intro h other added hmem hadded
          rcases List.mem_cons.1 hmem with heq | hmem
          · cases heq
            exact .inl (hskip.resolve_left hadded)
          · simpa using h other added hmem hadded
        · intro h other added hmem hadded
          simpa using h other added (List.mem_cons_of_mem _ hmem) hadded
      · rw [if_neg hskip]
        rcases not_or.1 hskip with ⟨hpiece, hnew⟩
        apply iff_of_false
        · -- one call too many, for the block at the index is no tool block
          intro heq
          have hlength := congrArg List.length heq
          have hle := length_toolBlockCalls_le (index :: seen) rest
          rw [List.length_cons] at hlength
          omega
        · intro h
          rcases h index piece List.mem_cons_self hpiece with hmem | ⟨id, name, hmem⟩
          · exact hnew hmem
          · exact not_opened_again id name hshape hshape.1 hmem
    | opensOther index =>
      have hlater : seen ⊆ index :: opened := List.subset_cons_of_subset index hseen
      simpa [callsFrom, toolBlockCalls] using ih hlater hshape.2
    | addsText index piece => simpa [callsFrom, toolBlockCalls] using ih hseen hshape.2
    | addsOther index => simpa [callsFrom, toolBlockCalls] using ih hseen hshape.2
    | reports => simpa [callsFrom, toolBlockCalls] using ih hseen hshape
    | nothing => simpa [callsFrom, toolBlockCalls] using ih hseen hshape
    | ends =>
      cases hshape
      simp [callsFrom, toolBlockCalls]

/-! ## What is assembled -/

/-- A stream of well-shaped events is assembled, and makes its calls. -/
theorem exists_assembled {events : List Value} {moves : List Move}
    (h : List.Forall₂ Makes events moves) (hshape : Shaped [] moves) :
    ∃ a m, feedEvents .anthropic .empty events = .ok a ∧ a.result = .ok m ∧
      m.toolCalls = (callsFrom [] moves).map TextCall.toValue := by
  rcases exists_deltas h with ⟨deltas, hreads, hfragments, hcomplete⟩
  have hopen : ∀ delta ∈ deltas.dropLast, delta.complete = false := by
    intro delta hdelta
    have hmem : delta.complete ∈ moves.dropLast.map Move.complete := by
      rw [List.map_dropLast, ← hcomplete, ← List.map_dropLast]
      exact List.mem_map_of_mem hdelta
    rcases List.mem_map.1 hmem with ⟨move, hmove, heq⟩
    rw [← heq]
    exact open_of_shaped hshape move hmove
  have heach : List.Forall₂ (fun event delta => Reads event.1 event.2 delta)
      (events.map fun event => (Vendor.anthropic, event)) deltas :=
    List.forall₂_map_left_iff.2 hreads
  rcases makesUp_of_reads heach hopen with ⟨a, m, hfeed, hresult, hm⟩
  refine ⟨a, m, ?_, hresult, ?_⟩
  · rw [feedEvents_eq]
    exact hfeed
  · have hall : (moves.flatMap Move.fragments).filter (unseen []) = moves.flatMap Move.fragments :=
      List.filter_eq_self.2 fun f _ => rfl
    apply hm.toolCalls_eq
    rw [hfragments, ← hall]
    exact map_whole_groups (by simp) hshape

/-- Of every stream that opens its blocks before it adds to them, whatever their types, a message is
assembled. It makes one call for each tool block, under its id and name and in their order, and no
others, exactly if argument texts are added to tool blocks only. -/
theorem calls_of_events {events : List Value} {moves : List Move}
    (h : List.Forall₂ Makes events moves) (hshape : Shaped [] moves) :
    ∃ a m, feedEvents .anthropic .empty events = .ok a ∧ a.result = .ok m ∧
      m.toolCalls = (callsFrom [] moves).map TextCall.toValue ∧
      (m.toolCalls = (toolBlockCalls moves).map TextCall.toValue ↔ OnlyToTools moves) := by
  rcases exists_assembled h hshape with ⟨a, m, hfeed, hresult, hcalls⟩
  refine ⟨a, m, hfeed, hresult, hcalls, ?_⟩
  calc m.toolCalls = (toolBlockCalls moves).map TextCall.toValue
      ↔ callsFrom [] moves = toolBlockCalls moves := by
        rw [hcalls]
        exact TextCall.toValue_injective.list_map.eq_iff
    _ ↔ OnlyToTools moves := by
        rw [callsFrom_eq_iff (by simp) hshape]
        simp [OnlyToTools]

/-- A text, a call whose argument text comes in two pieces, and a search of the service's own. -/
def seatMoves : List Move :=
  [.reports, .opensOther 0, .addsText 0 "Let me see.", .opensTool 1 "t1" "seats",
    .addsInput 1 r#"{"row":"#, .addsInput 1 r" 3}", .nothing, .opensOther 2, .ends]

def seatEvents : List Value :=
  [.dict [("type", .str "message_start")], opening 0 [("type", .str "text"), ("text", .str "")],
    textDelta 0 "Let me see.",
    opening 1 [("type", .str "tool_use"), ("id", .str "t1"), ("name", .str "seats")],
    inputDelta 1 r#"{"row":"#, inputDelta 1 r" 3}", .dict [("type", .str "ping")],
    opening 2 [("type", .str "server_tool_use")], .dict [("type", .str "message_stop")]]

theorem makes_seats : List.Forall₂ Makes seatEvents seatMoves := by
  have hstart : Makes (.dict [("type", .str "message_start")]) .reports :=
    .starts (by simp) ⟨.inl (by simp), .inl (by simp)⟩
  have htext : Makes (opening 0 [("type", .str "text"), ("text", .str "")]) (.opensOther 0) :=
    .opensOther (by simp [opening]) (by simp [opening]) (by simp [opening, Value.isText])
  have hsearch : Makes (opening 2 [("type", .str "server_tool_use")]) (.opensOther 2) :=
    .opensOther (by simp [opening]) (by simp [opening]) (by simp [opening, Value.isText])
  exact .cons hstart (.cons htext (.cons (.addsText (addsText_textDelta 0 "Let me see."))
    (.cons (.opensTool (opensTool_opening 1 (by decide) (by decide)))
    (.cons (.addsInput (addsInput_inputDelta 1 _)) (.cons (.addsInput (addsInput_inputDelta 1 _))
    (.cons (.nothing (by decide)) (.cons hsearch (.cons (.ends ⟨by simp⟩) .nil))))))))

theorem onlyToTools_seats : OnlyToTools seatMoves := by
  intro index piece hmem _
  have hpieces : index = 1 ∧ piece = r#"{"row":"# ∨ index = 1 ∧ piece = r" 3}" := by
    simpa [seatMoves] using hmem
  have hindex : index = 1 := by
    rcases hpieces with ⟨hindex, -⟩ | ⟨hindex, -⟩ <;> exact hindex
  subst hindex
  exact ⟨"t1", "seats", by simp [seatMoves]⟩

/-- A stream in which input comes for blocks of tools only makes one call for each. -/
theorem calls_of_events_seats :
    ∃ a m, feedEvents .anthropic .empty seatEvents = .ok a ∧ a.result = .ok m ∧
      m.toolCalls = [TextCall.toValue ⟨"t1", "seats", r#"{"row": 3}"#⟩] := by
  have hshape : Shaped [] seatMoves := by simp [seatMoves, Shaped]
  rcases calls_of_events makes_seats hshape with ⟨a, m, hfeed, hresult, -, hcalls⟩
  exact ⟨a, m, hfeed, hresult, hcalls.2 onlyToTools_seats⟩

/-- A search of the service's own, whose input comes in a piece. -/
def searchEvents : List Value :=
  [opening 0 [("type", .str "server_tool_use"), ("id", .str "s1"), ("name", .str "web_search")],
    inputDelta 0 r#"{"query": "x"}"#, .dict [("type", .str "message_stop")]]

/-- No tool block is opened, and a call is made all the same. -/
theorem phantom_of_search :
    (∃ moves, List.Forall₂ Makes searchEvents moves ∧ Shaped [] moves ∧ toolBlockCalls moves = []) ∧
    ∃ a m, feedEvents .anthropic .empty searchEvents = .ok a ∧ a.result = .ok m ∧
      m.toolCalls = [TextCall.toValue ⟨"", "", r#"{"query": "x"}"#⟩] := by
  have hmakes : List.Forall₂ Makes searchEvents
      [.opensOther 0, .addsInput 0 r#"{"query": "x"}"#, .ends] :=
    .cons (.opensOther (by simp [opening]) (by simp [opening]) (by simp [opening, Value.isText]))
      (.cons (.addsInput (addsInput_inputDelta 0 _)) (.cons (.ends ⟨by simp⟩) .nil))
  have hshape : Shaped []
      [.opensOther 0, .addsInput 0 r#"{"query": "x"}"#, .ends] := by
    simp [Shaped]
  rcases exists_assembled hmakes hshape with ⟨a, m, hfeed, hresult, hcalls⟩
  exact ⟨⟨_, hmakes, hshape, rfl⟩, a, m, hfeed, hresult, hcalls⟩

end Parley.Stream.Anthropic
