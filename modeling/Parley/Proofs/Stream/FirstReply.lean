import Parley.Proofs.Stream.Progress
import Parley.Stream.Collect

/-!
# Collecting the first reply

A stream is collected up to the chunk that is flagged as the last one. What comes after it is not
read, so it does not matter, and neither does a failure at the end. A stream without such a chunk is
read to its end, and only then its failure surfaces.

* `drainFrom_of_open`, `drainFrom_of_complete`: the loop, one chunk at a time;
* `drainFrom_of_going`: chunks that do not end the stream are fed, whatever comes after them;
* `Collects`: what collecting a stream comes to;
* `collects_of_chunks`: every stream of chunks is collected so.
-/

namespace Parley.Stream

/-! ## Draining -/

section Drain

variable {a b : Accumulator} {chunk : Value} {failure : Option VendorFailure}

/-- After a chunk that leaves the message open, reading goes on. -/
theorem drainFrom_of_open (hfeed : feed chunk a = (b, .ok ())) (hopen : b.isComplete = false)
    (consumed : Nat) (rest : List Value) :
    drainFrom a consumed failure (chunk :: rest) =
      drainFrom b (consumed + 1) failure rest := by
  simp only [drainFrom, hfeed, hopen, Bool.false_eq_true, if_false]

/-- After a chunk that completes it, nothing more is read. -/
theorem drainFrom_of_complete (hfeed : feed chunk a = (b, .ok ())) (hend : b.isComplete = true)
    (consumed : Nat) (rest : List Value) :
    drainFrom a consumed failure (chunk :: rest) = ⟨b, consumed + 1, none⟩ := by
  simp only [drainFrom, hfeed, hend, if_true]

end Drain

/-- Feeding a chunk without a fault is feeding it. -/
theorem feedChunk_of_feed {a b : Accumulator} {chunk : Value} (h : feed chunk a = (b, .ok ())) :
    feedChunk a chunk = .ok b := by
  rw [feedChunk, h]

/-- Chunks are fed from where the first one leads. -/
theorem feedChunks_cons {a b : Accumulator} {chunk : Value} (h : feed chunk a = (b, .ok ()))
    (rest : List Value) : feedChunks a (chunk :: rest) = feedChunks b rest := by
  rw [feedChunks, List.foldlM_cons, Outcome.bind_of_ok (feedChunk_of_feed h), feedChunks]

/-- A well-typed chunk is taken in, and completes the stream exactly if it is flagged. -/
theorem exists_feed_of_isChunk {a : Accumulator} {deltas : List Delta} {chunk : Value}
    (ha : Holds a deltas) (hopen : a.isComplete = false) (h : IsChunk chunk) :
    ∃ b later, feed chunk a = (b, .ok ()) ∧ Holds b later ∧
      (b.isComplete = true ↔ IsFlagged chunk) := by
  rcases h with ⟨_, hchunk⟩
  cases hchunk with
  | nothing =>
    refine ⟨a, deltas, rfl, ha, ?_⟩
    rw [hopen]
    exact iff_of_false (by simp) (by rintro ⟨⟩)
  | @message m delta brings =>
    rcases holds_feedChunk ha hopen brings with ⟨b, hfeed, hb⟩
    refine ⟨b, deltas ++ [delta], feed_of_feedChunk hfeed, hb, ?_⟩
    -- none of the deltas before was the end
    rw [isFlagged_iff (.message brings), hb.complete, List.any_append, ← ha.complete, hopen]
    simp

/-- Chunks that are not flagged are fed one after another, and what comes after them is read as if
they had not been there. -/
theorem drainFrom_of_going {chunks : List Value} {a : Accumulator} {deltas : List Delta}
    (ha : Holds a deltas) (hopen : a.isComplete = false) (h : ∀ chunk ∈ chunks, IsChunk chunk)
    (hgoing : ∀ chunk ∈ chunks, ¬IsFlagged chunk) :
    ∃ b later, feedChunks a chunks = .ok b ∧ Holds b later ∧ b.isComplete = false ∧
      ∀ consumed failure rest, drainFrom a consumed failure (chunks ++ rest) =
        drainFrom b (consumed + chunks.length) failure rest := by
  -- the accumulator and the count grow along the chunks
  induction chunks generalizing a deltas with
  | nil => exact ⟨a, deltas, rfl, ha, hopen, fun _ _ _ => rfl⟩
  | cons chunk chunks ih =>
    rcases List.forall_mem_cons.1 h with ⟨hchunk, hchunks⟩
    rcases List.forall_mem_cons.1 hgoing with ⟨hfirst, hlater⟩
    rcases exists_feed_of_isChunk ha hopen hchunk with ⟨b, after, hfeed, hb, hflagged⟩
    have hnext : b.isComplete = false := by simpa using mt hflagged.1 hfirst
    rcases ih hb hnext hchunks hlater with ⟨c, later, hfed, hc, hcopen, hdrain⟩
    refine ⟨c, later, (feedChunks_cons hfeed chunks).trans hfed, hc, hcopen, ?_⟩
    intro consumed failure rest
    rw [List.cons_append, drainFrom_of_open hfeed hnext, hdrain, List.length_cons]
    congr 1
    omega

/-- If there is a flagged chunk, there is a first one. -/
theorem exists_first_flagged {chunks : List Value} (h : ∃ chunk ∈ chunks, IsFlagged chunk) :
    ∃ before last after, chunks = before ++ last :: after ∧
      (∀ chunk ∈ before, ¬IsFlagged chunk) ∧ IsFlagged last := by
  classical
  have hfound : (chunks.find? fun chunk => decide (IsFlagged chunk)).isSome = true := by
    simpa using h
  rcases Option.isSome_iff_exists.1 hfound with ⟨last, hlast⟩
  rcases List.find?_eq_some_iff_append.1 hlast with ⟨hlast, before, after, hsplit, hgoing⟩
  exact ⟨before, last, after, hsplit, by simpa using hgoing, by simpa using hlast⟩

/-! ## Collecting -/

/-- What collecting a stream comes to. -/
inductive Collects (source : Source) : Prop where
  /-- It is read up to the first chunk that is flagged as the last one. Neither the chunks after
  that one nor the failure make a difference. -/
  | first {before after : List Value} {last : Value} {a : Accumulator} {m : Message}
      (split : source.chunks = before ++ last :: after)
      (going : ∀ chunk ∈ before, ¬IsFlagged chunk) (flagged : IsFlagged last)
      (fed : feedChunks .empty (before ++ [last]) = .ok a) (result : a.result = .ok m)
      (complete : m.isComplete = .ok true) (collected : collect source = .ok m)
      (consumed : (drain source).consumed = (before ++ [last]).length)
      (alike : ∀ other : Source, before ++ [last] <+: other.chunks →
        collect other = collect source ∧ (drain other).consumed = (drain source).consumed)
  /-- No chunk is flagged, and it is read to its end. Then the failure surfaces, if there is
  one. -/
  | whole {a : Accumulator} {m : Message} (going : ∀ chunk ∈ source.chunks, ¬IsFlagged chunk)
      (fed : feedChunks .empty source.chunks = .ok a) (result : a.result = .ok m)
      (complete : m.isComplete = .ok false)
      (collected : collect source =
        match source.failure with
        | none => .ok m
        | some failure => .error (.foreign failure))
      (consumed : (drain source).consumed = source.chunks.length)

/-- The result of an accumulator that holds deltas says whether the stream is complete. -/
theorem exists_result_of_holds {a : Accumulator} {deltas : List Delta} (h : Holds a deltas) :
    ∃ m, a.result = .ok m ∧ m.isComplete = .ok a.isComplete := by
  rcases makesUp_of_holds h with ⟨m, hresult, hm⟩
  exact ⟨m, hresult, by rw [hm.isComplete_eq, h.complete]⟩

/-- A flagged chunk behind ones that are not flagged ends the reading, whatever comes after it. -/
theorem exists_drain_of_flagged {before : List Value} {last : Value}
    (h : ∀ chunk ∈ before ++ [last], IsChunk chunk) (hgoing : ∀ chunk ∈ before, ¬IsFlagged chunk)
    (hflagged : IsFlagged last) :
    ∃ a deltas, feedChunks .empty (before ++ [last]) = .ok a ∧ Holds a deltas ∧
      a.isComplete = true ∧ ∀ source : Source, before ++ [last] <+: source.chunks →
        drain source = ⟨a, (before ++ [last]).length, none⟩ := by
  have hbefore : ∀ chunk ∈ before, IsChunk chunk := fun chunk hchunk =>
    h chunk (List.mem_append_left _ hchunk)
  rcases drainFrom_of_going holds_empty rfl hbefore hgoing with
    ⟨b, deltas, hfed, hb, hopen, hdrain⟩
  rcases exists_feed_of_isChunk hb hopen (h last (by simp)) with ⟨a, later, hfeed, ha, hends⟩
  have hcomplete : a.isComplete = true := hends.2 hflagged
  refine ⟨a, later, ?_, ha, hcomplete, ?_⟩
  · rw [feedChunks, List.foldlM_append]
    exact (Outcome.bind_of_ok hfed).trans (feedChunks_cons hfeed [])
  · rintro ⟨chunks, failure⟩ ⟨rest, rfl⟩
    simp only [drain, List.append_assoc, List.singleton_append, hdrain,
      drainFrom_of_complete hfeed hcomplete]
    simp

/-- A stream with a chunk that ends the message is collected up to there. -/
theorem collects_of_flagged {source : Source} {before after : List Value} {last : Value}
    (h : ∀ chunk ∈ source.chunks, IsChunk chunk) (hsplit : source.chunks = before ++ last :: after)
    (hgoing : ∀ chunk ∈ before, ¬IsFlagged chunk) (hflagged : IsFlagged last) :
    Collects source := by
  have hread : before ++ [last] <+: source.chunks := ⟨after, by simp [hsplit]⟩
  rcases exists_drain_of_flagged (fun chunk hchunk => h chunk (hread.subset hchunk)) hgoing
    hflagged with ⟨a, deltas, hfed, ha, hcomplete, hdrain⟩
  rcases exists_result_of_holds ha with ⟨m, hresult, hm⟩
  rw [hcomplete] at hm
  have hcollect : ∀ other : Source, before ++ [last] <+: other.chunks → collect other = .ok m := by
    intro other hother
    rw [collect, hdrain other hother]
    exact hresult
  refine .first hsplit hgoing hflagged hfed hresult hm (hcollect source hread) ?_ ?_
  · rw [hdrain source hread]
  · intro other hother
    rw [hcollect other hother, hcollect source hread, hdrain other hother, hdrain source hread]
    exact ⟨rfl, rfl⟩

/-- Chunks of which none is flagged are all read, and then the failure ends the reading, if there is
one. -/
theorem exists_drain_of_unflagged {source : Source} (h : ∀ chunk ∈ source.chunks, IsChunk chunk)
    (hgoing : ∀ chunk ∈ source.chunks, ¬IsFlagged chunk) :
    ∃ a deltas, feedChunks .empty source.chunks = .ok a ∧ Holds a deltas ∧
      a.isComplete = false ∧
        drain source = ⟨a, source.chunks.length, source.failure.map .foreign⟩ := by
  rcases drainFrom_of_going holds_empty rfl h hgoing with ⟨a, deltas, hfed, ha, hopen, hdrain⟩
  have hall := hdrain 0 source.failure []
  rw [List.append_nil, Nat.zero_add] at hall
  exact ⟨a, deltas, hfed, ha, hopen, hall⟩

/-- A stream without one is collected to its end, unless it breaks down. -/
theorem collects_of_unflagged {source : Source} (h : ∀ chunk ∈ source.chunks, IsChunk chunk)
    (hgoing : ∀ chunk ∈ source.chunks, ¬IsFlagged chunk) : Collects source := by
  rcases exists_drain_of_unflagged h hgoing with ⟨a, deltas, hfed, ha, hopen, hdrained⟩
  rcases exists_result_of_holds ha with ⟨m, hresult, hm⟩
  rw [hopen] at hm
  refine .whole hgoing hfed hresult hm ?_ ?_
  · rw [collect, hdrained, Drained.result]
    cases source.failure with
    | none => exact hresult
    | some failure => rfl
  · rw [hdrained]

/-- A stream of chunks is collected up to the first one that is flagged as the last, or else to its
end. The accumulator is never fed after the end of the stream. -/
theorem collects_of_chunks {source : Source} (h : ∀ chunk ∈ source.chunks, IsChunk chunk) :
    Collects source ∧ collect source ≠ .error .streamCompleted := by
  have hcollects : Collects source := by
    by_cases hflagged : ∃ chunk ∈ source.chunks, IsFlagged chunk
    · rcases exists_first_flagged hflagged with ⟨before, last, after, hsplit, hgoing, hlast⟩
      exact collects_of_flagged h hsplit hgoing hlast
    · exact collects_of_unflagged h (by simpa using hflagged)
  refine ⟨hcollects, ?_⟩
  cases hcollects with
  | first split going flagged fed result complete collected => simp [collected]
  | whole going fed result complete collected =>
    rw [collected]
    cases source.failure <;> simp

/-- A stream that goes on after its end, and then fails. -/
def greetSource : Source where
  chunks := [.null, (Delta.toMessage { text := "Hel" }).toValue, .null,
    (Delta.toMessage { text := "lo", complete := true }).toValue,
    (Delta.toMessage { text := "there", complete := true }).toValue]
  failure := some ⟨.other "RuntimeError", "gone"⟩

/-- A greeting is collected with the nulls between its chunks, and what follows it is not. -/
theorem collects_of_chunks_greeting :
    Collects greetSource ∧ (drain greetSource).consumed = 4 ∧
      ∃ m, collect greetSource = .ok m ∧ m.content = .str "Hello" := by
  have hchunks : ∀ chunk ∈ greetSource.chunks, IsChunk chunk := by
    intro chunk hchunk
    simp only [greetSource, List.mem_cons, List.not_mem_nil, or_false] at hchunk
    rcases hchunk with rfl | rfl | rfl | rfl | rfl
    · exact ⟨_, .nothing⟩
    · exact ⟨_, .message (brings_toMessage (by simp))⟩
    · exact ⟨_, .nothing⟩
    · exact ⟨_, .message (brings_toMessage (by simp))⟩
    · exact ⟨_, .message (brings_toMessage (by simp))⟩
  exact ⟨(collects_of_chunks hchunks).1, rfl, _, rfl, rfl⟩

end Parley.Stream
