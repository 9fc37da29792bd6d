import Parley.Proofs.Stream.Meaning

/-!
# A stream only moves forward

An accumulator goes from not started over streaming to completed. On the way nothing that it holds
is lost: texts and pieces of arguments are added behind those there, calls stay where they are, and
an id or a name that counts as something stays as it is.

* `Onward`: one accumulator is what another has become;
* `onward_feed`: feeding leads onward, whatever the chunk and also if it fails;
* `Request`, `answer`, `run`: feeding chunks and asking for the result, in any order;
* `course_of_requests`: how an accumulator gets on that is fed well-typed chunks.

Feeding is a sequence of steps, so it leads onward because each of them does: being onward is
reflexive and transitive, and a step that fails leaves an accumulator that is onward as well.
-/

namespace Parley.Stream

/-! ## Onward -/

def Phase.rank : Phase → Nat
  | .notStarted => 0
  | .streaming => 1
  | .completed => 2

/-- A pending call that another has become: an id and a name that count as something stay, and
pieces of arguments are only added. -/
structure PendingCall.Onward (call later : PendingCall) : Prop where
  id : call.id.truthy = true → later.id = call.id
  name : call.name.truthy = true → later.name = call.name
  fragments : call.fragments <+: later.fragments

/-- Calls that others have become: each stays in its place, under its key. -/
def CallsOnward (calls later : List (CallKey × PendingCall)) : Prop :=
  ∀ (position : Nat) (key : CallKey) (call : PendingCall), calls[position]? = some (key, call) →
    ∃ grown, later[position]? = some (key, grown) ∧ call.Onward grown

/-- An accumulator that another has become. -/
structure Onward (a b : Accumulator) : Prop where
  phase : a.phase.rank ≤ b.phase.rank
  texts : a.texts <+: b.texts
  calls : CallsOnward a.calls b.calls

theorem PendingCall.onward_refl (call : PendingCall) : call.Onward call :=
  ⟨fun _ => rfl, fun _ => rfl, List.prefix_refl _⟩

theorem PendingCall.Onward.trans {first second third : PendingCall} (h : first.Onward second)
    (h' : second.Onward third) : first.Onward third where
  id hid := by
    have hsame := h.id hid
    rw [← hsame] at hid
    rw [h'.id hid, hsame]
  name hname := by
    have hsame := h.name hname
    rw [← hsame] at hname
    rw [h'.name hname, hsame]
  fragments := h.fragments.trans h'.fragments

theorem callsOnward_refl (calls : List (CallKey × PendingCall)) : CallsOnward calls calls :=
  fun _ _ call hcall => ⟨call, hcall, call.onward_refl⟩

theorem CallsOnward.trans {first second third : List (CallKey × PendingCall)}
    (h : CallsOnward first second) (h' : CallsOnward second third) : CallsOnward first third := by
  intro position key call hcall
  rcases h position key call hcall with ⟨grown, hgrown, honward⟩
  rcases h' position key grown hgrown with ⟨last, hlast, honward'⟩
  exact ⟨last, hlast, honward.trans honward'⟩

theorem callsOnward_cons {key : CallKey} {call grown : PendingCall}
    {calls later : List (CallKey × PendingCall)} (hfirst : call.Onward grown)
    (hrest : CallsOnward calls later) :
    CallsOnward ((key, call) :: calls) ((key, grown) :: later) := by
  intro position k c hc
  cases position with
  | zero =>
    cases hc
    exact ⟨grown, rfl, hfirst⟩
  | succ position => exact hrest position k c hc

theorem onward_refl (a : Accumulator) : Onward a a :=
  ⟨Nat.le_refl _, List.prefix_refl _, callsOnward_refl _⟩

theorem Onward.trans {a b c : Accumulator} (h : Onward a b) (h' : Onward b c) : Onward a c :=
  ⟨h.phase.trans h'.phase, h.texts.trans h'.texts, h.calls.trans h'.calls⟩

/-! ## Steps -/

/-- A step that leads onward, whether it succeeds or fails. -/
def Step.Advances (step : Step) : Prop :=
  ∀ a, Onward a (step a).1

namespace Step

theorem advances_skip : (change id).Advances :=
  onward_refl

theorem advances_stop (fault : Fault) : (stop fault).Advances :=
  onward_refl

/-- Two steps that advance do so together. -/
theorem Advances.andThen {first second : Step} (h : first.Advances) (h' : second.Advances) :
    (first.andThen second).Advances := by
  intro a
  have hfirst := h a
  unfold Step.andThen
  cases hrun : first a with
  | mk b outcome =>
    rw [hrun] at hfirst
    cases outcome with
    | error fault => exact hfirst
    | ok done => exact hfirst.trans (h' b)

/-- A step that depends on a result advances if it does for every result. -/
theorem advances_depending {α : Type} {next : α → Step} (h : ∀ x, (next x).Advances)
    (result : Outcome α) : (depending result next).Advances := by
  cases result with
  | error fault => exact advances_stop fault
  | ok x => exact h x

end Step

/-- A content is added behind the texts. -/
theorem advances_takeText (content : Value) : (takeText content).Advances := by
  intro a
  cases ht : content.truthy with
  | false =>
    rw [takeText_of_falsy ht]
    exact onward_refl a
  | true =>
    simp only [takeText, change, ht, if_true]
    exact ⟨Nat.le_refl _, List.prefix_append _ _, callsOnward_refl _⟩

/-! ### Call fragments -/

/-- A fragment adds its piece, and gives an id or a name only where there is none. -/
theorem PendingCall.onward_extend (call : PendingCall) (fragment : ToolCall) :
    call.Onward (call.extend fragment) where
  id hid := by simp [extend, hid]
  name hname := by simp [extend, hname]
  fragments := List.prefix_append _ _

/-- A fragment starts a call or extends one. -/
theorem callsOnward_mergeFragment (key : CallKey) (fragment : ToolCall)
    (calls : List (CallKey × PendingCall)) :
    CallsOnward calls (mergeFragment key fragment calls) := by
  induction calls with
  | nil =>
    intro position k call hcall
    cases hcall
  | cons c rest ih =>
    rcases c with ⟨k, call⟩
    -- the fragment is for the first call, or goes further back
    unfold mergeFragment
    split
    · exact callsOnward_cons (call.onward_extend fragment) (callsOnward_refl rest)
    · exact callsOnward_cons call.onward_refl ih

/-- Extending a call loses nothing of it. -/
theorem callsOnward_extendCall (key : CallKey) (fragment : ToolCall)
    (calls : List (CallKey × PendingCall)) :
    CallsOnward calls (extendCall key fragment calls) := by
  induction calls with
  | nil =>
    intro position k call hcall
    cases hcall
  | cons c rest ih =>
    rcases c with ⟨k, call⟩
    rw [extendCall, List.map_cons]
    split
    · exact callsOnward_cons (call.onward_extend fragment) ih
    · exact callsOnward_cons call.onward_refl ih

/-- Adding a fragment advances, whatever stands in the entry. -/
theorem advances_addFragment (key : CallKey) (entry : Value) :
    (addFragment key entry).Advances := by
  intro a
  unfold addFragment
  rcases fragmentOf entry with ⟨fragment, fault | done⟩
  · exact ⟨Nat.le_refl _, List.prefix_refl _, callsOnward_extendCall key fragment a.calls⟩
  · exact ⟨Nat.le_refl _, List.prefix_refl _, callsOnward_mergeFragment key fragment a.calls⟩

theorem advances_addAlone (entry : Value) : (addAlone entry).Advances := by
  intro a
  have hcounted : Onward a { a with unindexed := a.unindexed + 1 } :=
    ⟨Nat.le_refl _, List.prefix_refl _, callsOnward_refl _⟩
  exact hcounted.trans (advances_addFragment _ entry _)

/-- Taking a fragment advances, whichever index it has. -/
theorem advances_takeFragment (indices : Value) (position : Nat) (entry : Value) :
    (takeFragment indices position entry).Advances := by
  refine Step.advances_depending ?_ _
  rintro (_ | index)
  · exact advances_addAlone entry
  · exact advances_addFragment (.block index) entry

theorem advances_takeFragments (indices : Value) (position : Nat) (entries : List Value) :
    (takeFragments indices position entries).Advances := by
  induction entries generalizing position with
  | nil => exact Step.advances_skip
  | cons entry rest ih => exact (advances_takeFragment indices position entry).andThen (ih _)

theorem advances_takeCalls (chunk metadata : Value) : (takeCalls chunk metadata).Advances :=
  Step.advances_depending (fun indices => Step.advances_depending (fun _ =>
    Step.advances_depending (fun entries => advances_takeFragments indices 0 entries) _) _) _

/-! ### A chunk -/

/-- Taking usage advances, even where it cannot be merged. -/
theorem advances_takeUsage (new : Value) : (takeUsage new).Advances := by
  intro a
  have hmerged (usage : Value) : (change fun a => { a with usage := usage }).Advances := fun _ =>
    ⟨Nat.le_refl _, List.prefix_refl _, callsOnward_refl _⟩
  exact Step.advances_depending hmerged _ a

theorem advances_takeNamed (metadata : Value) (key : String) :
    (takeNamed metadata key).Advances := by
  refine Step.advances_depending (fun v a => ?_) _
  unfold change
  split
  · exact onward_refl a
  · exact ⟨Nat.le_refl _, List.prefix_refl _, callsOnward_refl _⟩

theorem advances_takeEnd (complete : Value) : (takeEnd complete).Advances := by
  unfold takeEnd
  split
  · -- nothing is further along than completed
    refine Step.Advances.andThen (fun a => ⟨?_, List.prefix_refl _, callsOnward_refl _⟩) fun a => ?_
    · simp only [change]
      cases a.phase <;> simp [Phase.rank]
    · exact Step.advances_depending (fun _ => Step.advances_skip) _ a
  · exact Step.advances_skip

/-- Taking in a chunk leads onward, whatever the chunk is. -/
theorem advances_take (chunk : Value) : (take chunk).Advances := by
  refine (Step.advances_depending advances_takeText _).andThen ?_
  refine Step.advances_depending (fun metadata => ?_) _
  exact (advances_takeCalls chunk metadata).andThen <|
    (Step.advances_depending advances_takeUsage _).andThen <|
    (advances_takeNamed metadata "model").andThen <|
    (advances_takeNamed metadata "finish_reason").andThen <|
    Step.advances_depending advances_takeEnd _

theorem onward_started {a : Accumulator} (h : a.isComplete = false) :
    Onward a { a with phase := .streaming } := by
  refine ⟨?_, List.prefix_refl _, callsOnward_refl _⟩
  cases hphase : a.phase with
  | completed => simp [Accumulator.isComplete, hphase] at h
  | _ => simp [Phase.rank]

/-- Feeding leads onward, whatever the chunk is and also if it fails. -/
theorem onward_feed (chunk : Value) (a : Accumulator) : Onward a (feed chunk a).1 := by
  unfold feed
  split
  · exact onward_refl a
  · split
    · exact onward_refl a
    · rename_i hopen
      exact (onward_started (by simpa using hopen)).trans (advances_take chunk _)

/-- Once a chunk has been fed, a stream has started. -/
theorem started_of_feed {chunk : Value} (h : chunk.isNull = false) (a : Accumulator) :
    (feed chunk a).1.phase ≠ .notStarted := by
  simp only [feed, h, Bool.false_eq_true, if_false]
  split
  · rename_i hcomplete
    have hphase : a.phase = .completed := by simpa [Accumulator.isComplete] using hcomplete
    simp [hphase]
  · intro hphase
    have hrank := (advances_take chunk { a with phase := .streaming }).phase
    simp [hphase, Phase.rank] at hrank

/-! ## Requests -/

/-- What can be asked of an accumulator. -/
inductive Request where
  | feed (chunk : Value)
  | result

/-- What becomes of an accumulator that is asked something, and its answer: null for a chunk that is
taken in, the message for the result. -/
def answer (request : Request) (a : Accumulator) : Accumulator × Outcome Value :=
  match request with
  | .feed chunk => ((feed chunk a).1, (feed chunk a).2.map fun _ => .null)
  | .result => (a, a.result.map Message.toValue)

/-- What becomes of an accumulator that is asked one thing after another. -/
def run (a : Accumulator) (requests : List Request) : Accumulator :=
  requests.foldl (fun b request => (answer request b).1) a

/-- The chunks among requests that are taken in. Null is none. -/
def accepted (a : Accumulator) : List Request → List Value
  | [] => []
  | .result :: rest => accepted a rest
  | .feed chunk :: rest =>
    let later := accepted (feed chunk a).1 rest
    if (feed chunk a).2.isOk && !chunk.isNull then chunk :: later else later

def IsChunk (chunk : Value) : Prop :=
  ∃ delta, Chunk chunk delta

def IsFlagged (chunk : Value) : Prop :=
  chunk.attr "is_complete" = .ok (.bool true)

def Continues (before after : Outcome String) : Prop :=
  ∃ old more, before = .ok old ∧ after = .ok (old ++ more)

/-- How an accumulator gets on when it is asked something. -/
structure Proceeds (a : Accumulator) (request : Request) : Prop where
  phase : a.phase.rank ≤ (answer request a).1.phase.rank
  text : Continues a.text (answer request a).1.text
  calls : ∀ (position : Nat) (key : CallKey) (call : PendingCall),
    a.calls[position]? = some (key, call) →
      ∃ later, (answer request a).1.calls[position]? = some (key, later) ∧
        (call.id.truthy = true → later.id = call.id) ∧
        (call.name.truthy = true → later.name = call.name) ∧
        Continues (Value.joinTexts call.fragments) (Value.joinTexts later.fragments)
  skipped : request = .feed .null → answer request a = (a, .ok .null)
  refused : a.isComplete = true → ∀ chunk, request = .feed chunk → chunk ≠ .null →
    answer request a = (a, .error .streamCompleted)
  looked_at : request = .result → (answer request a).1 = a

/-- How an accumulator gets on over a course of requests. -/
structure Course (requests : List Request) : Prop where
  proceeds : ∀ before request after, requests = before ++ request :: after →
    Proceeds (run .empty before) request
  not_started : (run .empty requests).phase = .notStarted ↔ accepted .empty requests = []
  completed : (run .empty requests).phase = .completed ↔
    ∃ chunk ∈ accepted .empty requests, IsFlagged chunk
  last : ∀ chunk ∈ (accepted .empty requests).dropLast, ¬IsFlagged chunk

/-! ### One request -/

theorem feed_null (a : Accumulator) : feed .null a = (a, .ok ()) := rfl

/-- A complete message takes nothing in. -/
theorem feed_of_complete {a : Accumulator} {chunk : Value} (h : a.isComplete = true)
    (hchunk : chunk.isNull = false) : feed chunk a = (a, .error .streamCompleted) := by
  simp [feed, hchunk, h]

theorem onward_answer (request : Request) (a : Accumulator) : Onward a (answer request a).1 := by
  cases request with
  | feed chunk => exact onward_feed chunk a
  | result => exact onward_refl a

/-- A chunk is flagged exactly if its delta is the end. -/
theorem isFlagged_iff {chunk : Value} {delta : Delta} (h : Chunk chunk (some delta)) :
    IsFlagged chunk ↔ delta.complete = true := by
  cases h with
  | @message m _ brings =>
    rcases brings.metadata with ⟨fields, hmetadata, hmarks⟩
    rw [IsFlagged, Message.attr_isComplete hmetadata, Message.isComplete, Message.flag, hmetadata,
      get_dict, ← hmarks.complete]
    simp [bind, Except.bind, pure, Except.pure, Except.map]

theorem continues_of_prefix {xs : List Value} {texts : List String} (h : xs <+: texts.map .str) :
    Continues (Value.joinTexts xs) (Value.joinTexts (texts.map .str)) := by
  rcases h with ⟨more, hmore⟩
  rcases List.map_eq_append_iff.1 hmore.symm with ⟨old, new, rfl, rfl, rfl⟩
  exact ⟨String.join old, String.join new, Value.joinTexts_map_str old, by
    rw [Value.joinTexts_map_str, String.join_append]⟩

/-- The pieces of the arguments that an accumulator holds are texts. -/
theorem exists_texts_of_holds {a : Accumulator} {deltas : List Delta} (h : Holds a deltas)
    {c : CallKey × PendingCall} (hc : c ∈ a.calls) : ∃ texts : List String,
      c.2.fragments = texts.map .str := by
  have hassembled (group : List Fragment) :
      ∃ texts : List String, (assemble group).fragments = texts.map .str :=
    ⟨_, congrArg PendingCall.fragments (foldl_extend group "" "" [])⟩
  rcases exists_of_mem_left h.calls hc with ⟨group, -, hkeeps⟩
  cases hkeeps with
  | indexed later listed => exact hassembled _
  | alone before unlisted => exact hassembled _

/-- Onward from one accumulator that holds texts to another, the texts go on where they end. -/
theorem proceeds_of_holds {a : Accumulator} {request : Request} {deltas : List Delta}
    (h : Holds (answer request a).1 deltas) : Proceeds a request where
  phase := (onward_answer request a).phase
  text := by
    have hprefix := (onward_answer request a).texts
    rw [h.texts] at hprefix
    rw [Accumulator.text, Accumulator.text, h.texts]
    exact continues_of_prefix hprefix
  calls := by
    intro position key call hcall
    rcases (onward_answer request a).calls position key call hcall with ⟨grown, hgrown, honward⟩
    rcases exists_texts_of_holds h (List.mem_of_getElem? hgrown) with ⟨texts, htexts⟩
    have hprefix := honward.fragments
    rw [htexts] at hprefix
    refine ⟨grown, hgrown, honward.id, honward.name, ?_⟩
    rw [htexts]
    exact continues_of_prefix hprefix
  skipped := by
    rintro rfl
    rw [answer, feed_null]
    rfl
  refused := by
    rintro hcomplete chunk rfl hchunk
    have hnull : chunk.isNull = false := by simpa [← Value.isNull_iff] using hchunk
    rw [answer, feed_of_complete hcomplete hnull]
    rfl
  looked_at := by
    rintro rfl
    rfl

/-! ### A course of requests -/

/-- What an accumulator has come to by chunks that bring deltas: it holds them, it has started if
there are any, and of those before the last none is the end. -/
structure Reaches (a : Accumulator) (deltas : List Delta) : Prop extends Holds a deltas where
  start : a.phase = .notStarted ↔ deltas = []
  going : ∀ delta ∈ deltas.dropLast, delta.complete = false

/-- A new accumulator is reached by no requests. -/
theorem reaches_empty : Reaches .empty [] :=
  ⟨holds_empty, by simp [Accumulator.empty], by simp⟩

/-- A well-typed chunk is taken in by an accumulator that is not complete. -/
theorem reaches_feed {a : Accumulator} {deltas : List Delta} {m : Message} {delta : Delta}
    (ha : Reaches a deltas) (hopen : a.isComplete = false) (h : Brings m delta) :
    ∃ b, feed m.toValue a = (b, .ok ()) ∧ Reaches b (deltas ++ [delta]) := by
  rcases holds_feedChunk ha.toHolds hopen h with ⟨b, hfeed, hb⟩
  have hfeed := feed_of_feedChunk hfeed
  have hnull : m.toValue.isNull = false := rfl
  have hstarted := started_of_feed hnull a
  rw [hfeed] at hstarted
  refine ⟨b, hfeed, hb, by simpa using hstarted, ?_⟩
  -- as the accumulator is not complete, none of the deltas it holds is the end
  rw [List.dropLast_concat]
  rw [ha.complete, List.any_eq_false] at hopen
  simpa using hopen

/-- Asked one thing after another, an accumulator comes to what the accepted chunks bring. -/
theorem reaches_run {requests : List Request} {a : Accumulator} {before : List Delta}
    (h : ∀ chunk, Request.feed chunk ∈ requests → IsChunk chunk) (ha : Reaches a before) :
    ∃ later,
      List.Forall₂ (fun chunk delta => Chunk chunk (some delta)) (accepted a requests) later ∧
      Reaches (run a requests) (before ++ later) := by
  induction requests generalizing a before with
  | nil => exact ⟨[], .nil, by simpa [run] using ha⟩
  | cons request rest ih =>
    have hrest : ∀ chunk, Request.feed chunk ∈ rest → IsChunk chunk := fun chunk hchunk =>
      h chunk (List.mem_cons_of_mem request hchunk)
    cases request with
    | result => exact ih hrest ha
    | feed chunk =>
      rcases h chunk List.mem_cons_self with ⟨_, hchunk⟩
      cases hchunk with
      | nothing => exact ih hrest ha
      | @message m delta brings =>
        have hnull : m.toValue.isNull = false := rfl
        cases hcomplete : a.isComplete with
        | true =>
          have hfeed := feed_of_complete hcomplete hnull
          rcases ih hrest ha with ⟨later, haccepted, hreaches⟩
          refine ⟨later, ?_, ?_⟩
          · simpa [accepted, hfeed, Except.isOk, Except.toBool] using haccepted
          · simpa [run, answer, hfeed] using hreaches
        | false =>
          rcases reaches_feed ha hcomplete brings with ⟨b, hfeed, hb⟩
          rcases ih hrest hb with ⟨later, haccepted, hreaches⟩
          refine ⟨delta :: later, ?_, ?_⟩
          · simpa [accepted, hfeed, hnull, Except.isOk, Except.toBool] using
              List.Forall₂.cons (.message brings) haccepted
          · simpa [run, answer, hfeed] using hreaches

/-- Requests are answered in their order. -/
theorem run_append (a : Accumulator) (requests later : List Request) :
    run a (requests ++ later) = run (run a requests) later := by
  simp [run]

/-- Every request of a course finds an accumulator that it leaves what is there. -/
theorem proceeds_of_split {before after : List Request} {request : Request}
    (h : ∀ chunk, Request.feed chunk ∈ before ++ request :: after → IsChunk chunk) :
    Proceeds (run .empty before) request := by
  have hfirst : ∀ chunk, Request.feed chunk ∈ before ++ [request] → IsChunk chunk := by
    intro chunk hchunk
    apply h
    simp only [List.mem_append, List.mem_cons, List.not_mem_nil, or_false] at hchunk ⊢
    rcases hchunk with hbefore | hrequest
    · exact .inl hbefore
    · exact .inr (.inl hrequest)
  rcases reaches_run hfirst reaches_empty with ⟨deltas, -, hreaches⟩
  rw [run_append] at hreaches
  exact proceeds_of_holds hreaches.toHolds

/-- However chunks are fed to it and results asked of it, an accumulator moves forward only. Each
request leaves what is there; null is skipped, and whatever comes after the end is refused; it is
completed exactly if an accepted chunk was flagged, which is then the last one accepted. -/
theorem course_of_requests {requests : List Request}
    (h : ∀ chunk, Request.feed chunk ∈ requests → IsChunk chunk) : Course requests := by
  rcases reaches_run h reaches_empty with ⟨deltas, haccepted, hreaches⟩
  rw [List.nil_append] at hreaches
  have hnone : deltas = [] ↔ accepted .empty requests = [] := by
    rw [← List.length_eq_zero_iff, ← haccepted.length_eq, List.length_eq_zero_iff]
  have hphase : (run .empty requests).phase = .completed ↔
      ∃ delta ∈ deltas, delta.complete = true := by
    have hcomplete : (run .empty requests).isComplete = true ↔
        (run .empty requests).phase = .completed := by
      simp [Accumulator.isComplete]
    rw [← hcomplete, hreaches.complete, List.any_eq_true]
  have hdropped : List.Forall₂ (fun chunk delta => Chunk chunk (some delta))
      (accepted .empty requests).dropLast deltas.dropLast := by
    rw [List.dropLast_eq_take, List.dropLast_eq_take, haccepted.length_eq]
    exact List.forall₂_take _ haccepted
  exact
    { proceeds := by
        rintro before request after rfl
        exact proceeds_of_split h
      not_started := hreaches.start.trans hnone
      completed := by
        rw [hphase]
        constructor
        · rintro ⟨delta, hdelta, hend⟩
          rcases exists_of_mem_left haccepted.flip hdelta with ⟨chunk, hchunk, hbrings⟩
          exact ⟨chunk, hchunk, (isFlagged_iff hbrings).2 hend⟩
        · rintro ⟨chunk, hchunk, hflagged⟩
          rcases exists_of_mem_left haccepted hchunk with ⟨delta, hdelta, hbrings⟩
          exact ⟨delta, hdelta, (isFlagged_iff hbrings).1 hflagged⟩
      last := by
        intro chunk hchunk hflagged
        rcases exists_of_mem_left hdropped hchunk with ⟨delta, hdelta, hbrings⟩
        have hend := (isFlagged_iff hbrings).1 hflagged
        rw [hreaches.going delta hdelta] at hend
        cases hend }

/-- A call in two chunks, with the result asked for in between, and a chunk after the end. -/
def seatRequests : List Request :=
  [.result,
    .feed (Delta.toMessage
      { text := "Hi", calls := [⟨"t1", "seats", r"{"⟩], indices := [0] }).toValue,
    .feed .null,
    .result,
    .feed (Delta.toMessage
      { calls := [⟨"t2", "", r"}"⟩], indices := [0], complete := true }).toValue,
    .feed (Delta.toMessage { text := "more" }).toValue,
    .feed .null]

/-- A text, a result in between and a call that goes on make one course. -/
theorem course_of_requests_seats :
    Course seatRequests ∧ (run .empty seatRequests).phase = .completed := by
  have hchunks : ∀ chunk, Request.feed chunk ∈ seatRequests → IsChunk chunk := by
    intro chunk hchunk
    simp only [seatRequests, List.mem_cons, List.not_mem_nil, Request.feed.injEq, reduceCtorEq,
      false_or, or_false] at hchunk
    rcases hchunk with rfl | rfl | rfl | rfl | rfl
    · exact ⟨_, .message (brings_toMessage (by simp))⟩
    · exact ⟨_, .nothing⟩
    · exact ⟨_, .message (brings_toMessage (by simp))⟩
    · exact ⟨_, .message (brings_toMessage (by simp))⟩
    · exact ⟨_, .nothing⟩
  exact ⟨course_of_requests hchunks, rfl⟩

end Parley.Stream
