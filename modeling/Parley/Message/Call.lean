import Parley.Json.Writer
import Parley.Value.Access

/-!
# Tool calls

A tool call asks for one invocation of a function. Its arguments are the text of a JSON object;
while a reply is being streamed they may be a fragment of that text.
-/

namespace Parley

/-- A tool invocation requested by a model. -/
structure ToolCall where
  id : Value
  name : Value
  arguments : Value := .str ""

namespace ToolCall

def toValue (call : ToolCall) : Value :=
  .object .call [("id", call.id), ("function_name", call.name), ("arguments_json", call.arguments)]

def ofObject? : Value → Option ToolCall
  | .object .call fields =>
    some ⟨Fields.value fields "id", Fields.value fields "function_name",
      Fields.value fields "arguments_json"⟩
  | _ => none

@[simp] theorem ofObject?_toValue (call : ToolCall) : ofObject? call.toValue = some call := rfl

@[simp] theorem attr_id (call : ToolCall) : call.toValue.attr "id" = .ok call.id := rfl

@[simp] theorem attr_name (call : ToolCall) :
    call.toValue.attr "function_name" = .ok call.name := rfl

@[simp] theorem attr_arguments (call : ToolCall) :
    call.toValue.attr "arguments_json" = .ok call.arguments := rfl

end ToolCall

/-- Checks the named attributes that an object is to be built from: all required ones have to be
there and no unknown one may be. -/
def checkAttributes (required optional : List String) (given : Fields) : Outcome Unit :=
  if required.all (fun name => (given.lookup name).isSome) &&
      given.all (fun f => required.contains f.1 || optional.contains f.1) then .ok ()
  else misuse .kind

def ToolCall.build (given : Fields) : Outcome ToolCall := do
  checkAttributes ["id", "function_name"] ["arguments_json"] given
  return ⟨given.value "id", given.value "function_name",
    given.valueOr "arguments_json" (.str "")⟩

/-! ## Calls in plain form -/

namespace Value

/-- The field under the first key if the dictionary has it, even as null, else under the second. -/
def getEither (v : Value) (first second : String) : Outcome Value := do
  match ← v.get? first with
  | some w => return w
  | none => v.get second

end Value

namespace ToolCall

/-- The function's name in a plain call, under any of its spellings. -/
def plainName (raw function : Value) : Outcome Value := do
  let name := (← raw.get "function_name").orElse
    ((← raw.get "functionName").orElse (← raw.get "name"))
  if name.truthy then return name else function.get "name"

/-- The arguments in a plain call, under any of their spellings. -/
def plainArguments (raw function : Value) : Outcome Value := do
  let given ← raw.getEither "arguments_json" "argumentsJSON"
  if given.isNull then
    let nested ← function.get? "arguments"
    return (← raw.get? "arguments").getD (nested.getD (.str ""))
  else return given

/-- Arguments as a text: those that are none are written as one. -/
def argumentText (arguments : Value) : Outcome String :=
  match arguments with
  | .str s => .ok s
  | v => Json.write v

/-- The call that a value gives: a call object is itself; a dictionary holds its parts under the
library's own keys, their camel-case spellings, or nested under `function`. -/
def ofValue (raw : Value) : Outcome ToolCall :=
  match ofObject? raw with
  | some call => .ok call
  | none =>
    match raw with
    | .dict _ => do
      let function := (← raw.get "function").orElse (.dict [])
      let name ← plainName raw function
      if name.truthy then
        let arguments ← argumentText (← plainArguments raw function)
        let id := (← raw.get "id").orElse (.str "")
        return ⟨.str (← id.spelled), name, .str arguments⟩
      else invalid (.callWithoutName raw)
    | _ => invalid (.callNotMapping raw.kindName)

end ToolCall

end Parley
