import Parley.Request
import Parley.RequestLog

/-!
# Activities

What a provider does to the outside while it serves a call, and what comes of it. The actions are
kept in the order in which they happen, also those before a fault, so that a statement about a call
can say what was recorded, sent, read and closed, how often, and in which order. Main statements:
the actions of two activities in a row are those of the first and then, if it succeeded, those of
the second.
-/

namespace Parley

/-- An action that can be seen from outside. -/
inductive Action where
  /-- A record was added to the request log. -/
  | recorded (record : RequestRecord)
  /-- A request was sent. -/
  | requested (request : Request)
  /-- The vendor opened an event stream. -/
  | opened
  /-- An event was read from the stream. -/
  | received (event : Value)
  /-- The chunk of an event, if it has one, was handed to the consumer. -/
  | yielded (chunk : Option Message)
  /-- The event stream was closed. -/
  | closed

/-- The actions of a call and what comes of it. -/
structure Activity (α : Type) where
  actions : List Action
  outcome : Outcome α

namespace Activity

def ofOutcome {α : Type} (outcome : Outcome α) : Activity α :=
  ⟨[], outcome⟩

def perform (action : Action) : Activity Unit :=
  ⟨[action], .ok ()⟩

def fail {α : Type} (fault : Fault) : Activity α :=
  ofOutcome (.error fault)

/-- One activity after another; the second does not take place if the first fails. -/
def andThen {α β : Type} (first : Activity α) (next : α → Activity β) : Activity β :=
  match first.outcome with
  | .ok x => ⟨first.actions ++ (next x).actions, (next x).outcome⟩
  | .error fault => ⟨first.actions, .error fault⟩

/-- An activity followed by actions that take place whether it succeeds or not. -/
def ending {α : Type} (activity : Activity α) (last : List Action) : Activity α :=
  ⟨activity.actions ++ last, activity.outcome⟩

instance : Monad Activity where
  pure x := ofOutcome (.ok x)
  bind := andThen

variable {α β : Type}

@[simp] theorem actions_ofOutcome (outcome : Outcome α) : (ofOutcome outcome).actions = [] := rfl

@[simp] theorem outcome_ofOutcome (outcome : Outcome α) : (ofOutcome outcome).outcome = outcome :=
  rfl

@[simp] theorem actions_pure (x : α) : (pure x : Activity α).actions = [] := rfl

@[simp] theorem outcome_pure (x : α) : (pure x : Activity α).outcome = .ok x := rfl

/-- What follows a success is done after it. -/
theorem bind_of_ok {first : Activity α} {x : α} (h : first.outcome = .ok x)
    (next : α → Activity β) :
    first >>= next = ⟨first.actions ++ (next x).actions, (next x).outcome⟩ := by
  show andThen first next = _
  simp [andThen, h]

theorem bind_of_error {first : Activity α} {fault : Fault} (h : first.outcome = .error fault)
    (next : α → Activity β) : first >>= next = ⟨first.actions, .error fault⟩ := by
  show andThen first next = _
  simp [andThen, h]

end Activity

end Parley
