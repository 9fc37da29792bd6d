import Parley.Number.Digits
import Parley.Number.Layout
import Parley.Text.Quoted
import Parley.Value.Basic

/-!
# Values as people read them

How a value appears inside a message to a person: texts quoted, lists in brackets, dictionaries in
braces with their fields in order. The spellings are those of the program's own messages. A value
that holds an integer with too many digits cannot be shown; `printable` tells which values can.
-/

namespace Parley

def ObjectKind.name : ObjectKind → String
  | .message => "CanonicalMessage"
  | .shared _ => "CanonicalMessage"
  | .call => "ToolCall"
  | .tool => "ToolSchema"
  | .usage => "TokenUsage"
  | .vendor => "SimpleNamespace"
  | .operation => "builtin_function_or_method"

/-- The word that stands before the attributes of a shown object. -/
def ObjectKind.word : ObjectKind → String
  | .vendor => "namespace"
  | kind => kind.name

namespace Value

/-- The name of the kind of value, as messages about a wrong kind give it. -/
def kindName : Value → String
  | .null => "NoneType"
  | .bool _ => "bool"
  | .int _ => "int"
  | .float _ => "float"
  | .str _ => "str"
  | .list _ => "list"
  | .dict _ => "dict"
  | .object kind _ => kind.name

def boolText (b : Bool) : String :=
  if b then "True" else "False"

mutual

def shown : Value → String
  | .null => "None"
  | .bool b => boolText b
  | .int n => String.ofList (Number.intText n)
  | .float x => String.ofList (x.layout .shown)
  | .str s => String.ofList (Text.quote s.toList)
  | .list items => "[" ++ ", ".intercalate (shownItems items) ++ "]"
  | .dict fields => r"{" ++ ", ".intercalate (shownFields fields) ++ r"}"
  | .object kind fields => kind.word ++ "(" ++ ", ".intercalate (shownAttributes fields) ++ ")"

def shownItems : List Value → List String
  | [] => []
  | v :: rest => v.shown :: shownItems rest

def shownFields : List (String × Value) → List String
  | [] => []
  | (k, v) :: rest => (String.ofList (Text.quote k.toList) ++ ": " ++ v.shown) :: shownFields rest

def shownAttributes : List (String × Value) → List String
  | [] => []
  | (k, v) :: rest => (k ++ "=" ++ v.shown) :: shownAttributes rest

end

/-- The value as it is put into running text: a text as it is, anything else as it is shown. -/
def plain : Value → String
  | .str s => s
  | v => v.shown

mutual

/-- Whether a value can be shown: no integer in it has too many digits. -/
def printable : Value → Bool
  | .int n => Number.isShort n
  | .list items => printableItems items
  | .dict fields => printableFields fields
  | .object _ fields => printableFields fields
  | _ => true

def printableItems : List Value → Bool
  | [] => true
  | v :: rest => v.printable && printableItems rest

def printableFields : List (String × Value) → Bool
  | [] => true
  | (_, v) :: rest => v.printable && printableFields rest

end

@[simp] theorem printable_str (s : String) : (Value.str s).printable = true := rfl

end Value

end Parley
