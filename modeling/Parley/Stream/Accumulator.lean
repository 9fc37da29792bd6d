import Parley.Message.Basic

/-!
# Assembling a streamed reply

The accumulator takes the chunks of one streamed reply in order of arrival and at any time tells the
message they make up: texts are joined, call fragments are merged per block index, a call without
an index is complete on arrival, usage reports are merged, and the model and finish reason are the
last ones named. A stream goes from not started over streaming to completed and never back.

A chunk is read by its attributes, and so are the calls in it: a message serves, and so does an
object of a vendor's that has the attributes of one. Feeding a chunk is a sequence of steps, and a
step that fails leaves what the steps before it did.
-/

namespace Parley.Stream

inductive Phase where
  | notStarted
  | streaming
  | completed
deriving DecidableEq, Repr

/-- What identifies a call of the stream: the block it is the content of, or its number among the
calls without one. -/
inductive CallKey where
  | block (index : Value)
  | alone (number : Nat)

def CallKey.same : CallKey → CallKey → Bool
  | .block i, .block j => i.same j
  | .alone m, .alone n => m == n
  | _, _ => false

/-- A call whose arguments are still arriving. -/
structure PendingCall where
  id : Value
  name : Value
  fragments : List Value

def PendingCall.pieces (arguments : Value) : List Value :=
  if arguments.truthy then [arguments] else []

def PendingCall.start (fragment : ToolCall) : PendingCall :=
  ⟨fragment.id, fragment.name, pieces fragment.arguments⟩

/-- A call with a further fragment: the first id and the first name that count stay. -/
def PendingCall.extend (call : PendingCall) (fragment : ToolCall) : PendingCall where
  id := if fragment.id.truthy && !call.id.truthy then fragment.id else call.id
  name := if fragment.name.truthy && !call.name.truthy then fragment.name else call.name
  fragments := call.fragments ++ pieces fragment.arguments

def PendingCall.finish (call : PendingCall) : Outcome ToolCall := do
  let arguments ← Value.joinTexts call.fragments
  return ⟨call.id, call.name, (Value.str arguments).orElse (.str "{}")⟩

structure Accumulator where
  phase : Phase := .notStarted
  texts : List Value := []
  calls : List (CallKey × PendingCall) := []
  usage : Value := .null
  named : Fields := []
  unindexed : Nat := 0

namespace Accumulator

def empty : Accumulator := {}

def isComplete (a : Accumulator) : Bool :=
  a.phase == .completed

def text (a : Accumulator) : Outcome String :=
  Value.joinTexts a.texts

end Accumulator

/-! ## Steps -/

abbrev Step := Accumulator → Accumulator × Outcome Unit

/-- A step that changes the accumulator and cannot fail. -/
def change (f : Accumulator → Accumulator) : Step := fun a => (f a, .ok ())

def stop (fault : Fault) : Step := fun a => (a, .error fault)

/-- One step after another; the second is not taken if the first fails. -/
def Step.andThen (first second : Step) : Step := fun a =>
  match first a with
  | (b, .ok ()) => second b
  | r => r

/-- A step that depends on a result, which may not be there. -/
def depending {α : Type} (result : Outcome α) (next : α → Step) : Step :=
  match result with
  | .ok x => next x
  | .error fault => stop fault

def takeText (content : Value) : Step :=
  change fun a => if content.truthy then { a with texts := a.texts ++ [content] } else a

/-- The calls with a fragment added to the one of a key, a new one at the end. -/
def mergeFragment (key : CallKey) (fragment : ToolCall) :
    List (CallKey × PendingCall) → List (CallKey × PendingCall)
  | [] => [(key, .start fragment)]
  | (k, call) :: rest =>
    if k.same key then (k, call.extend fragment) :: rest
    else (k, call) :: mergeFragment key fragment rest

/-- The calls with a fragment added to the one of a key, if there is one. -/
def extendCall (key : CallKey) (fragment : ToolCall) (calls : List (CallKey × PendingCall)) :
    List (CallKey × PendingCall) :=
  calls.map fun c => if c.1.same key then (c.1, c.2.extend fragment) else c

/-- The fragment that an entry of a call list is. Its attributes are read one after another; what
comes before one that is missing is still given, the rest as null. -/
def fragmentOf (entry : Value) : ToolCall × Outcome Unit :=
  match entry.attr "id" with
  | .error fault => (⟨.null, .null, .null⟩, .error fault)
  | .ok id =>
    match entry.attr "function_name" with
    | .error fault => (⟨id, .null, .null⟩, .error fault)
    | .ok name =>
      match entry.attr "arguments_json" with
      | .error fault => (⟨id, name, .null⟩, .error fault)
      | .ok arguments => (⟨id, name, arguments⟩, .ok ())

@[simp] theorem fragmentOf_toValue (fragment : ToolCall) :
    fragmentOf fragment.toValue = (fragment, .ok ()) := rfl

/-- Adds a fragment to the call of a key. One with a missing attribute starts no call, but what
there is of it is added to a call that has been started. -/
def addFragment (key : CallKey) (entry : Value) : Step := fun a =>
  match fragmentOf entry with
  | (fragment, .ok ()) => ({ a with calls := mergeFragment key fragment a.calls }, .ok ())
  | (fragment, .error fault) =>
    ({ a with calls := extendCall key fragment a.calls }, .error fault)

/-- The block index of the fragment at a position of its chunk, if it has one. -/
def indexAt (indices : Value) (position : Nat) : Outcome (Option Value) :=
  if indices.isNull then .ok none
  else do
    if position < (← indices.size) then
      let index ← indices.item position
      if index.hashable then return some index else misuse .kind
    else return none

def addAlone (entry : Value) : Step := fun a =>
  addFragment (.alone a.unindexed) entry { a with unindexed := a.unindexed + 1 }

def takeFragment (indices : Value) (position : Nat) (entry : Value) : Step :=
  depending (indexAt indices position) fun
    | some index => addFragment (.block index) entry
    | none => addAlone entry

def takeFragments (indices : Value) (position : Nat) : List Value → Step
  | [] => change id
  | entry :: rest =>
    (takeFragment indices position entry).andThen (takeFragments indices (position + 1) rest)

def mergeUsage (old new : Value) : Outcome Value :=
  if new.isNull then .ok old
  else if old.isNull then .ok new
  else
    match TokenUsage.ofObject? old with
    | none => old.callMissing "merge"
    | some usage => do return (← usage.merge (← TokenUsage.ofAttributes new)).toValue

def takeUsage (new : Value) : Step := fun a =>
  depending (mergeUsage a.usage new) (fun usage => change fun a => { a with usage := usage }) a

/-- Takes in a metadata entry that is to be remembered. -/
def takeNamed (metadata : Value) (key : String) : Step :=
  depending (metadata.get key) fun v =>
    change fun a => if v.isNull then a else { a with named := Fields.put a.named key v }

/-- Completes the stream if the chunk says so. The text is put together once more then, so texts
that cannot be joined come to light. -/
def takeEnd (complete : Value) : Step :=
  if complete.truthy then
    (change fun a => { a with phase := .completed }).andThen fun a =>
      depending a.text (fun _ => change id) a
  else change id

def takeCalls (chunk metadata : Value) : Step :=
  depending (metadata.get "tool_call_indices") fun indices =>
    depending (chunk.attr "tool_calls") fun calls =>
      depending calls.items (takeFragments indices 0)

def take (chunk : Value) : Step :=
  (depending (chunk.attr "content") takeText).andThen <|
  depending (chunk.attr "metadata") fun metadata =>
    (takeCalls chunk metadata).andThen <|
    (depending (chunk.attr "usage") takeUsage).andThen <|
    (takeNamed metadata "model").andThen <|
    (takeNamed metadata "finish_reason").andThen <|
    depending (chunk.attr "is_complete") takeEnd

/-- Feeds a chunk. Null is skipped in any phase; what lacks an attribute of a message starts the
stream and fails there. -/
def feed (chunk : Value) : Step := fun a =>
  if chunk.isNull then (a, .ok ())
  else if a.isComplete then (a, .error .streamCompleted)
  else take chunk { a with phase := .streaming }

/-! ## Results -/

namespace Accumulator

def result (a : Accumulator) : Outcome Message := do
  let text ← a.text
  let calls ← a.calls.mapM fun c => c.2.finish
  return {
    role := .str "assistant"
    content := if text = "" && !a.calls.isEmpty then .null else .str text
    toolCalls := calls.map ToolCall.toValue
    usage := a.usage
    metadata := .dict (a.named ++ [("is_complete", .bool a.isComplete)]) }

end Accumulator

end Parley.Stream
