import Parley.Proofs.Reply.Shape
import Parley.Vendor.Reading

/-!
# Ids of calls

The service for content generation need not give a call an id. A call that came with one keeps it;
the others are numbered in the order of the parts, so no two of them share an id, and nothing else
uses up a number.

* `functionCalls`: the calls in parts;
* `madeUpId_injective`: ids with different numbers differ;
* `Numbered`: calls that are numbered from a count on; `numbered_of_partsOf`: reading parts does so;
* `Accepted`: what a response or an event that is read gives as its calls;
* `Identified`: how calls are identified;
* `identified_of_accepted`: the calls of everything that is read are identified so.
-/

namespace Parley

/-- What is read of an event that is not skipped is what its reader gave. -/
theorem Reading.eq_of_sound {x : Outcome (Option Message)} {reading : Reading}
    (h : Reading.ofOutcome x = .ok reading) (hsound : reading.isMalformed = false) :
    x = .ok reading.chunk? := by
  unfold Reading.ofOutcome at h
  split at h <;> cases h
  · rfl
  · rfl
  · cases hsound
  · cases hsound

namespace Google

variable {tag : String}

/-! ## Calls in parts -/

/-- The parts of the first candidate; without any candidate there are none. -/
def partsIn (raw : Value) : Outcome (List Value) :=
  let candidates := raw.read "candidates"
  if candidates.truthy then do
    ((← candidates.item 0).read "content" |>.field ["parts"] (.list [])).items
  else .ok []

/-- The function calls in parts, in order. Thoughts and texts are none. -/
def functionCalls (parts : List Value) : List Value :=
  (parts.filter fun part => !(part.read "thought").truthy && !(callIn part).isNull).map callIn

/-- The calls of a list of parts are those of the first part, and then those of the rest. A thought
makes no call, whatever it holds. -/
theorem functionCalls_cons (part : Value) (rest : List Value) :
    functionCalls (part :: rest) =
      if (part.read "thought").truthy then functionCalls rest
      else if (callIn part).isNull then functionCalls rest
      else callIn part :: functionCalls rest := by
  cases hthought : (part.read "thought").truthy <;> cases hcall : (callIn part).isNull <;>
    simp [functionCalls, hthought, hcall]

def isUnidentified (raw : Value) : Bool :=
  !(raw.read "id").truthy

/-- The ids of the calls that came without one, in order. -/
def newIds (raws : List Value) (calls : List ToolCall) : List Value :=
  ((raws.zip calls).filter fun pair => isUnidentified pair.1).map fun pair => pair.2.id

/-- Ids that are made up under one tag with different numbers differ, for a number can be told from
its digits. -/
theorem madeUpId_injective (tag : String) : Function.Injective (madeUpId tag) := by
  intro m n h
  have hdigits : Number.digits m = Number.digits n :=
    String.ofList_injective (String.append_right_inj _ |>.1 h)
  rw [← Json.ofDigits_digits m, hdigits, Json.ofDigits_digits]

/-! ## Numbering -/

/-- The calls of function calls, with ids made up from a count on for those without one. -/
inductive Numbered (tag : String) : Nat → List Value → List ToolCall → Prop where
  | nil (made : Nat) : Numbered tag made [] []
  | kept {made : Nat} {raw : Value} {raws : List Value} {call : ToolCall} {calls : List ToolCall}
      (identified : isUnidentified raw = false) (name : call.name = raw.read "name")
      (id : call.id = raw.read "id") (later : Numbered tag made raws calls) :
      Numbered tag made (raw :: raws) (call :: calls)
  | made_up {made : Nat} {raw : Value} {raws : List Value} {call : ToolCall}
      {calls : List ToolCall} (unidentified : isUnidentified raw = true)
      (name : call.name = raw.read "name") (id : call.id = .str (madeUpId tag made))
      (later : Numbered tag (made + 1) raws calls) :
      Numbered tag made (raw :: raws) (call :: calls)

/-- A function call is read under its own id, or under the next one, which is then used up. -/
theorem numbered_cons_of_callOf {made after : Nat} {raw : Value} {call : ToolCall}
    {raws : List Value} {calls : List ToolCall} (h : callOf tag made raw = .ok (call, after))
    (hlater : Numbered tag after raws calls) : Numbered tag made (raw :: raws) (call :: calls) := by
  simp only [callOf] at h
  split at h
  · cases h
  · obtain ⟨args, -, h⟩ := Outcome.of_bind_eq_ok h
    obtain ⟨arguments, -, h⟩ := Outcome.of_bind_eq_ok h
    split at h
    · rename_i hid
      cases h
      exact .kept (by simp [isUnidentified, hid]) rfl rfl hlater
    · rename_i hid
      cases h
      exact .made_up (by simp [isUnidentified, hid]) rfl rfl hlater

/-- Parts are read from a count on as the calls in them, numbered from there. -/
theorem numbered_of_partsOf {made : Nat} {parts texts : List Value} {calls : List ToolCall}
    (h : partsOf tag made parts = .ok (texts, calls)) :
    Numbered tag made (functionCalls parts) calls := by
  induction parts generalizing made texts calls with
  | nil =>
    cases h
    exact .nil made
  | cons part rest ih =>
    rw [partsOf_cons] at h
    rw [functionCalls_cons]
    cases hthought : (part.read "thought").truthy with
    | true =>
      simp only [hthought, if_true] at h ⊢
      exact ih h
    | false =>
      cases hcall : (callIn part).isNull with
      | false =>
        simp only [hthought, hcall, Bool.false_eq_true, if_false, Bool.not_false, if_true] at h ⊢
        obtain ⟨⟨first, after⟩, hfirst, h⟩ := Outcome.of_bind_eq_ok h
        obtain ⟨⟨later, others⟩, hlater, h⟩ := Outcome.of_bind_eq_ok h
        cases h
        exact numbered_cons_of_callOf hfirst (ih hlater)
      | true =>
        simp only [hthought, hcall, Bool.false_eq_true, if_false, Bool.not_true, if_true] at h ⊢
        obtain ⟨⟨later, others⟩, hlater, h⟩ := Outcome.of_bind_eq_ok h
        cases h
        exact ih hlater

/-- New ids are those of the calls that came without one. -/
theorem newIds_cons (raw : Value) (raws : List Value) (call : ToolCall) (calls : List ToolCall) :
    newIds (raw :: raws) (call :: calls) =
      if isUnidentified raw then call.id :: newIds raws calls else newIds raws calls := by
  cases h : isUnidentified raw <;> simp [newIds, h]

/-- The ids that are made up have the numbers from the count on, one after another. -/
theorem Numbered.newIds_eq {made : Nat} {raws : List Value} {calls : List ToolCall}
    (h : Numbered tag made raws calls) :
    newIds raws calls =
      (List.range' made (raws.countP isUnidentified)).map fun n => .str (madeUpId tag n) := by
  induction h with
  | nil => rfl
  | kept hidentified _ _ _ ih => simp [newIds_cons, hidentified, ih]
  | made_up hunidentified _ hid _ ih =>
    simp [newIds_cons, hunidentified, ih, hid, List.range'_succ]

/-! ## Everything that is read -/

/-- A call of a function call: it has its name, and its id if it came with one. -/
structure Keeps (raw : Value) (call : ToolCall) : Prop where
  name : call.name = raw.read "name"
  id : (raw.read "id").truthy = true → call.id = raw.read "id"

/-- The calls of function calls: those that came with an id keep it, and the others, however many
there are, have the ids with the numbers from zero on, which are all different. -/
structure Identified (tag : String) (raws : List Value) (calls : List ToolCall) : Prop where
  kept : List.Forall₂ Keeps raws calls
  numbered : newIds raws calls =
    (List.range (raws.countP isUnidentified)).map fun n => .str (madeUpId tag n)
  distinct : (newIds raws calls).Nodup

/-- Numbered calls keep what the vendor says of them. -/
theorem Numbered.keeps {made : Nat} {raws : List Value} {calls : List ToolCall}
    (h : Numbered tag made raws calls) : List.Forall₂ Keeps raws calls := by
  induction h with
  | nil => exact .nil
  | kept _ hname hid _ ih => exact .cons ⟨hname, fun _ => hid⟩ ih
  | made_up hunidentified hname _ _ ih =>
    refine .cons ⟨hname, fun hid => ?_⟩ ih
    simp [isUnidentified, hid] at hunidentified

/-- Calls that are numbered from zero are identified. -/
theorem Numbered.identified {raws : List Value} {calls : List ToolCall}
    (h : Numbered tag 0 raws calls) : Identified tag raws calls where
  kept := h.keeps
  numbered := by rw [h.newIds_eq, List.range_eq_range']
  distinct := by
    have hdiffer : Function.Injective fun n => Value.str (madeUpId tag n) := fun m n hsame =>
      madeUpId_injective tag (Value.str.inj hsame)
    rw [h.newIds_eq, ← List.range_eq_range']
    exact List.nodup_range.map hdiffer

/-- What a response or an event that is read gives as its calls. An event that is read may give no
chunk, and then it gives no calls. -/
inductive Accepted (tag : String) (raw : Value) : List Value → Prop where
  | reply {m : Message} (read : (Vendor.google tag).readReply raw = .ok m) :
      Accepted tag raw m.toolCalls
  | event {reading : Reading} (read : (Vendor.google tag).readEvent raw = .ok reading)
      (sound : reading.isMalformed = false) :
      Accepted tag raw ((reading.chunk?.map Message.toolCalls).getD [])

/-- The calls of the first candidate are numbered. -/
theorem exists_of_candidate {raw candidate : Value} {text : String} {calls : List ToolCall}
    (hcandidates : (raw.read "candidates").truthy = true)
    (hfirst : (raw.read "candidates").item 0 = .ok candidate)
    (hsaid : candidateOf tag candidate = .ok (text, calls)) :
    ∃ parts, partsIn raw = .ok parts ∧ Numbered tag 0 (functionCalls parts) calls := by
  obtain ⟨parts, hparts, h⟩ := Outcome.of_bind_eq_ok hsaid
  obtain ⟨⟨texts, made⟩, hmade, h⟩ := Outcome.of_bind_eq_ok h
  obtain ⟨joined, -, h⟩ := Outcome.of_bind_eq_ok h
  cases h
  refine ⟨parts, ?_, numbered_of_partsOf hmade⟩
  simp only [partsIn, hcandidates, if_true]
  rw [Outcome.bind_of_ok hfirst]
  exact hparts

/-- The calls of a reply that is read are numbered from zero. -/
theorem exists_of_replyOf_calls {raw : Value} {m : Message} (h : replyOf tag raw = .ok m) :
    ∃ parts calls, partsIn raw = .ok parts ∧ m.toolCalls = calls.map ToolCall.toValue ∧
      Numbered tag 0 (functionCalls parts) calls := by
  simp only [replyOf] at h
  split at h
  · cases h
  · rename_i hcandidates
    obtain ⟨candidate, hfirst, h⟩ := Outcome.of_bind_eq_ok h
    obtain ⟨⟨text, calls⟩, hsaid, h⟩ := Outcome.of_bind_eq_ok h
    obtain ⟨usage, -, h⟩ := Outcome.of_bind_eq_ok h
    cases h
    rcases exists_of_candidate (by simpa using hcandidates) hfirst hsaid with
      ⟨parts, hparts, hnumbered⟩
    exact ⟨parts, calls, hparts, rfl, hnumbered⟩

theorem exists_of_chunkOf_calls {raw : Value} {chunk : Option Message}
    (h : chunkOf tag raw = .ok chunk) :
    ∃ parts calls, partsIn raw = .ok parts ∧
      (chunk.map Message.toolCalls).getD [] = calls.map ToolCall.toValue ∧
      Numbered tag 0 (functionCalls parts) calls := by
  obtain ⟨usage, -, h⟩ := Outcome.of_bind_eq_ok h
  dsimp only at h
  split at h
  · rename_i hnone
    have hparts : partsIn raw = .ok [] := by
      simp only [partsIn]
      rw [if_neg (by simpa using hnone)]
    refine ⟨[], [], hparts, ?_, .nil 0⟩
    cases usage <;> cases h <;> rfl
  · rename_i hcandidates
    obtain ⟨candidate, hfirst, h⟩ := Outcome.of_bind_eq_ok h
    obtain ⟨⟨text, calls⟩, hsaid, h⟩ := Outcome.of_bind_eq_ok h
    rcases exists_of_candidate (by simpa using hcandidates) hfirst hsaid with
      ⟨parts, hparts, hnumbered⟩
    refine ⟨parts, calls, hparts, ?_, hnumbered⟩
    dsimp only at h
    split at h
    -- an event that is not worth handing on has no calls
    · rename_i hblank
      cases h
      have hcalls : calls = [] := by simp_all
      rw [hcalls]
      rfl
    · cases h
      rfl

/-- The calls of every response and every event that is read are identified in the order of its
parts. -/
theorem identified_of_accepted {raw : Value} {entries : List Value} (h : Accepted tag raw entries) :
    ∃ parts calls, partsIn raw = .ok parts ∧ entries = calls.map ToolCall.toValue ∧
      Identified tag (functionCalls parts) calls := by
  cases h with
  | reply read =>
    rcases exists_of_replyOf_calls (Reply.of_checked read) with
      ⟨parts, calls, hparts, hcalls, hnumbered⟩
    exact ⟨parts, calls, hparts, hcalls, hnumbered.identified⟩
  | event read sound =>
    rcases exists_of_chunkOf_calls (Reading.eq_of_sound read sound) with
      ⟨parts, calls, hparts, hcalls, hnumbered⟩
    exact ⟨parts, calls, hparts, hcalls, hnumbered.identified⟩

/-- A function call in a part, with an id that may be missing. -/
def askedSeat (id : Value) : Fields :=
  [("functionCall", .dict [("id", id), ("name", .str "seats")])]

/-- A text, a thought that holds a call, and four calls, of which one has an id. -/
def seatParts : List Value :=
  [.dict [("text", .str "Let me see.")],
    .dict (("thought", .bool true) :: askedSeat .null),
    .dict (askedSeat .null), .dict (askedSeat (.str "t1")), .dict (askedSeat (.str "")),
    .dict (askedSeat .null)]

def seatReply : Value :=
  .dict [("candidates", .list [.dict [("content", .dict [("parts", .list seatParts)])]])]

/-- Of three calls the one with an id keeps it, and the others get numbers in their order. -/
theorem identified_of_accepted_seats :
    ∃ m, (Vendor.google "a1").readReply seatReply = .ok m ∧
      (∃ parts calls, partsIn seatReply = .ok parts ∧ m.toolCalls = calls.map ToolCall.toValue ∧
        Identified "a1" (functionCalls parts) calls) ∧
      m.toolCalls.map (fun call => call.attr "id") =
        [.ok (.str "call_a1_0"), .ok (.str "t1"), .ok (.str "call_a1_1"),
          .ok (.str "call_a1_2")] :=
  ⟨_, rfl, identified_of_accepted (.reply rfl), rfl⟩

end Google

end Parley
