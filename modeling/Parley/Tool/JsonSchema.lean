import Parley.Value.Access

/-!
# Argument schemas in JSON Schema

Vendors that take JSON Schema get the parameters of a tool as they are, completed at the root: a
schema describes an object unless it says otherwise, and an object has properties.
-/

namespace Parley.Tool

def emptySchema : Value :=
  .dict [("type", .str "object"), ("properties", .dict [])]

def completeRoot (fields : Fields) : Fields :=
  let typed := Fields.putIfAbsent fields "type" (.str "object")
  if (Fields.value typed "type").isText "object" then
    Fields.putIfAbsent typed "properties" (.dict [])
  else typed

def jsonSchema (parameters : Value) : Outcome Value :=
  if parameters.truthy then return .dict (completeRoot (← parameters.toFields))
  else .ok emptySchema

end Parley.Tool
