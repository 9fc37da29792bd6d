import Parley.Fault

/-!
# Writing interchange text

Values as JSON text in plain characters: everything outside the printable ASCII range is written
as code-unit escapes, floating-point numbers in their shortest digits, fields in their order. The
compact form separates with a comma or colon and a space; the indented form puts every member on a
line of its own.

Not every value has such a text: an object has none, and an integer with too many digits is not
written. `write` gives up at the first of them that it meets. The renderers themselves are total and
show an object as quoted text.
-/

namespace Parley.Json

/-! ## Strings -/

def unitEscape (n : Nat) : List Char :=
  '\\' :: 'u' :: Text.hexDigits 4 n

def escapeChar (c : Char) : List Char :=
  if c = '"' then ['\\', '"']
  else if c = '\\' then ['\\', '\\']
  else if c = '\n' then ['\\', 'n']
  else if c = '\r' then ['\\', 'r']
  else if c = '\t' then ['\\', 't']
  else if c = '\x08' then ['\\', 'b']
  else if c = '\x0c' then ['\\', 'f']
  else if 0x20 ≤ c.toNat ∧ c.toNat < 0x7f then [c]
  else if c.toNat < 0x10000 then unitEscape c.toNat
  else
    unitEscape (0xd800 + (c.toNat - 0x10000) / 0x400) ++
      unitEscape (0xdc00 + (c.toNat - 0x10000) % 0x400)

def stringText (cs : List Char) : List Char :=
  '"' :: (cs.flatMap escapeChar ++ ['"'])

/-! ## Values -/

def scalarText : Value → List Char
  | .null => "null".toList
  | .bool true => "true".toList
  | .bool false => "false".toList
  | .int n => Number.intText n
  | .float x => x.layout .interchange
  | .str s => stringText s.toList
  | v => stringText v.plain.toList

mutual

def compact : Value → List Char
  | .list items => '[' :: compactItems items
  | .dict fields => '{' :: compactFields fields
  | v => scalarText v

def compactItems : List Value → List Char
  | [] => [']']
  | [v] => compact v ++ [']']
  | v :: rest => compact v ++ ',' :: ' ' :: compactItems rest

def compactFields : List (String × Value) → List Char
  | [] => ['}']
  | [(k, v)] => stringText k.toList ++ ':' :: ' ' :: (compact v ++ ['}'])
  | (k, v) :: rest =>
    stringText k.toList ++ ':' :: ' ' :: (compact v ++ ',' :: ' ' :: compactFields rest)

end

def newLine (depth : Nat) : List Char :=
  '\n' :: List.replicate (2 * depth) ' '

mutual

/-- The indented text of a value at a depth. An empty list or dictionary stays on its line. -/
def indented (depth : Nat) : Value → List Char
  | .list [] => ['[', ']']
  | .list items => '[' :: (indentedItems (depth + 1) items ++ newLine depth ++ [']'])
  | .dict [] => ['{', '}']
  | .dict fields => '{' :: (indentedFields (depth + 1) fields ++ newLine depth ++ ['}'])
  | v => scalarText v

def indentedItems (depth : Nat) : List Value → List Char
  | [] => []
  | [v] => newLine depth ++ indented depth v
  | v :: rest => newLine depth ++ indented depth v ++ ',' :: indentedItems depth rest

def indentedFields (depth : Nat) : List (String × Value) → List Char
  | [] => []
  | [(k, v)] => newLine depth ++ stringText k.toList ++ ':' :: ' ' :: indented depth v
  | (k, v) :: rest =>
    newLine depth ++ stringText k.toList ++ ':' :: ' ' ::
      (indented depth v ++ ',' :: indentedFields depth rest)

end

mutual

/-- What keeps a value from being written, if anything does: the first object or integer with too
many digits. -/
def obstacle? : Value → Option Misuse
  | .list items => obstacleItems? items
  | .dict fields => obstacleFields? fields
  | .object _ _ => some .kind
  | .int n => if Number.isShort n then none else some .content
  | _ => none

def obstacleItems? : List Value → Option Misuse
  | [] => none
  | v :: rest => (obstacle? v).or (obstacleItems? rest)

/-- What keeps one of some field values from being written. -/
def obstacleFields? : List (String × Value) → Option Misuse
  | [] => none
  | (_, v) :: rest => (obstacle? v).or (obstacleFields? rest)

end

def writable (v : Value) : Bool :=
  (obstacle? v).isNone

def write (v : Value) : Outcome String :=
  match obstacle? v with
  | none => .ok (String.ofList (compact v))
  | some how => misuse how

/-- The indented text of a value; objects are shown as quoted text. -/
def display (v : Value) : String :=
  String.ofList (indented 0 v)

end Parley.Json
