import Parley.Message.Call

/-!
# Tool descriptions

A function that a model may call: its name, what it is for, and a schema of its arguments.
-/

namespace Parley

/-- The description of a callable function. -/
structure ToolSchema where
  name : Value
  description : Value := .str ""
  parameters : Value := .dict []

namespace ToolSchema

def toValue (tool : ToolSchema) : Value :=
  .object .tool [("name", tool.name), ("description", tool.description),
    ("parameters", tool.parameters)]

def ofObject? : Value → Option ToolSchema
  | .object .tool fields =>
    some ⟨Fields.value fields "name", Fields.value fields "description",
      Fields.value fields "parameters"⟩
  | _ => none

@[simp] theorem ofObject?_toValue (tool : ToolSchema) : ofObject? tool.toValue = some tool := rfl

def build (given : Fields) : Outcome ToolSchema := do
  checkAttributes ["name"] ["description", "parameters"] given
  return ⟨given.value "name", given.valueOr "description" (.str ""),
    given.valueOr "parameters" (.dict [])⟩

/-- The description that a value gives: a description object is itself; a dictionary holds its
parts directly or, if its type is `function`, nested under `function`. -/
def ofValue (raw : Value) : Outcome ToolSchema :=
  match ofObject? raw with
  | some tool => .ok tool
  | none =>
    match raw with
    | .dict _ => do
      let function ←
        if (← raw.get "type").isText "function" then raw.get "function" else pure raw
      if function.truthy then
        let name ← function.get "name"
        if name.truthy then
          return ⟨name, (← function.get "description").orElse (.str ""),
            (← function.get "parameters").orElse (.dict [])⟩
        else invalid (.toolWithoutName raw)
      else invalid (.toolWithoutName raw)
    | _ => invalid (.toolNotMapping raw.kindName)

@[simp] theorem ofValue_toValue (tool : ToolSchema) : ofValue tool.toValue = .ok tool := rfl

/-- The description of a function by the schemas of its arguments and the names of the required
ones. -/
def create (given : Fields) : Outcome ToolSchema := do
  checkAttributes ["name", "description", "parameters"] ["required"] given
  return {
    name := given.value "name"
    description := given.value "description"
    parameters := .dict [
      ("type", .str "object"),
      ("properties", given.value "parameters"),
      ("required", (given.value "required").orElse (.list []))] }

end ToolSchema

end Parley
