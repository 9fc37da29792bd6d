import Parley.Text.Case
import Parley.Value.Access

/-!
# Argument schemas in the Gemini dialect

Gemini takes a subset of the OpenAPI schema object. A schema is carried over position by position:
the root, the values under `properties`, the schema under `items` and the members of the
combinators are schemas; everything else is data and stays as it is. At each position

* type tokens become upper-case, the known ones by name;
* a list of types becomes its first concrete one, and `nullable` if it holds `null`;
* the keywords that the dialect does not know are dropped.
-/

namespace Parley.Tool

def droppedKeywords : List String :=
  ["$schema", "$id", "$defs", "definitions", "additionalProperties", "strict"]

def combinators : List String := ["anyOf", "any_of", "oneOf", "allOf"]

/-- The types of JSON Schema and their tokens in the dialect. -/
def typeTokens : List (String × String) := [
  ("string", "STRING"), ("number", "NUMBER"), ("integer", "INTEGER"), ("boolean", "BOOLEAN"),
  ("array", "ARRAY"), ("object", "OBJECT"), ("null", "NULL")]

/-- The token of a type; what is no text stays as it is. -/
def typeToken (v : Value) : Value :=
  match v with
  | .str s =>
    match typeTokens.lookup (String.ofList (Text.lower s.toList)) with
    | some token => .str token
    | none => .str (String.ofList (Text.upper s.toList))
  | v => v

/-- The fields with the type set from the value of a `type` keyword. -/
def putType (fields : Fields) (v : Value) : Fields :=
  match v with
  | .list types =>
    let concrete := types.filter fun t => !t.isText "null"
    let fields :=
      if concrete.length < types.length then Fields.put fields "nullable" (.bool true) else fields
    Fields.put fields "type" (match concrete with
      | [] => .str "NULL"
      | t :: _ => typeToken t)
  | v => Fields.put fields "type" (typeToken v)

/-- The schema in the dialect with these fields; one that had none describes an object. -/
def wrapSchema (source converted : Fields) : Value :=
  if source.isEmpty then .dict [("type", .str "OBJECT"), ("properties", .dict [])]
  else .dict converted

mutual

def geminiSchema : Value → Outcome Value
  | .dict fields => return wrapSchema fields (← geminiFields [] fields)
  | v => if v.truthy then v.callMissing "items" else .ok (wrapSchema [] [])

/-- The keywords of one schema, added to those converted before. -/
def geminiFields (converted : Fields) : List (String × Value) → Outcome Fields
  | [] => .ok converted
  | (key, v) :: rest => do
    if droppedKeywords.contains key then geminiFields converted rest
    else if key = "type" then geminiFields (putType converted v) rest
    else
      let w ← geminiKeyword key v
      geminiFields (Fields.put converted key w) rest

def geminiKeyword (key : String) : Value → Outcome Value
  | .dict fields => do
    if key = "properties" then return .dict (← geminiProperties fields)
    else if key = "items" then return wrapSchema fields (← geminiFields [] fields)
    else return .dict fields
  | .list members => do
    if combinators.contains key then return .list (← geminiMembers members)
    else return .list members
  | v => .ok v

def geminiProperties : List (String × Value) → Outcome Fields
  | [] => .ok []
  | (name, v) :: rest => do
    let w ← geminiSchema v
    return (name, w) :: (← geminiProperties rest)

def geminiMembers : List Value → Outcome (List Value)
  | [] => .ok []
  | v :: rest => do
    let w ← geminiSchema v
    return w :: (← geminiMembers rest)

end

/-- The single tool entry that holds all function declarations. -/
def declarations (tools : Value) : Outcome Value :=
  return .list [.dict [("function_declarations", .list (← tools.items))]]

end Parley.Tool
