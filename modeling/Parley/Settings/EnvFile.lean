import Parley.Text.Blank

/-!
# Environment files

The text format in which environment variables are kept in a file: one assignment `NAME=value` a
line, blank lines, and comments from `#` on. A name may be quoted and may follow the word `export`;
a value may be quoted, and then spans lines and knows escapes. A name alone, without `=`, says that
the variable has no value. Of several lines with one name the last counts. The comment of a value
without quotes starts at the first `#` that follows a blank. A byte order mark before the text does
not belong to it.

A line that breaks the format is skipped from the point where it does.
-/

namespace Parley.EnvFile

open Parley.Text

/-- A line of the file: a name and its value, if it has one. -/
abbrev Entry := String × Option String

/-- The text from some point on. A reader gives what it read and the rest after it, or fails with
the rest from the point where the format is broken. -/
abbrev Rest := List Char

/-! ## Characters and lines -/

/-- The text without the byte order mark that may stand before it. -/
def dropMark : List Char → List Char
  | '\ufeff' :: rest => rest
  | cs => cs

/-- The text with every line end as a single line feed. -/
def unifyLineEnds : List Char → List Char
  | [] => []
  | '\r' :: '\n' :: rest => '\n' :: unifyLineEnds rest
  | c :: rest => (if c = '\r' then '\n' else c) :: unifyLineEnds rest

/-- Whether a character is blank and does not end the line. -/
def isSpace (c : Char) : Bool :=
  isBlank c && c != '\n'

def inLine (c : Char) : Bool :=
  c != '\n'

def skipSpaces (cs : Rest) : List Char :=
  cs.dropWhile isSpace

def skipLine (cs : Rest) : List Char :=
  (cs.dropWhile inLine).drop 1

def skipComment (cs : Rest) : List Char :=
  match skipSpaces cs with
  | '#' :: rest => rest.dropWhile inLine
  | _ => cs

/-- What follows the end of the line, which has to be here. -/
def endLine (cs : Rest) : Except Rest Rest :=
  match skipSpaces cs with
  | [] => .ok []
  | '\n' :: rest => .ok rest
  | _ => .error cs

/-! ## Names -/

/-- What follows the word `export` and the spaces after it, if they stand here. -/
def skipExport (cs : Rest) : List Char :=
  if "export".toList.isPrefixOf cs then
    match cs.drop 6 with
    | c :: rest => if isSpace c then skipSpaces rest else cs
    | [] => cs
  else cs

/-- Whether a character may stand in a name without quotes. -/
def inName (c : Char) : Bool :=
  c != '=' && c != '#' && !isBlank c

/-- Reads a name, of which a line that is only a comment has none. -/
def readName (cs : Rest) : Except Rest (Option String × Rest) :=
  match cs with
  | '#' :: _ => .ok (none, cs)
  | '\'' :: rest =>
    match rest.takeWhile (· != '\''), rest.dropWhile (· != '\'') with
    | c :: name, _ :: after => .ok (some (String.ofList (c :: name)), after)
    | _, _ => .error cs
  | _ =>
    match cs.takeWhile inName with
    | [] => .error cs
    | name => .ok (some (String.ofList name), cs.dropWhile inName)

/-! ## Values -/

/-- What stands before the closing quote, and what follows it. A backslash takes the character
after it along, so a quote after one does not close. -/
def untilQuote (quote : Char) : List Char → Option (List Char × List Char)
  | [] => none
  | '\\' :: c :: rest => (untilQuote quote rest).map fun r => ('\\' :: c :: r.1, r.2)
  | c :: rest =>
    if c = quote then some ([], rest)
    else (untilQuote quote rest).map fun r => (c :: r.1, r.2)

/-- The escapes between single quotes: the character after the backslash and what it stands for. -/
def singleEscapes : List (Char × Char) :=
  [('\\', '\\'), ('\'', '\'')]

def doubleEscapes : List (Char × Char) := singleEscapes ++
  [('"', '"'), ('a', '\x07'), ('b', '\x08'), ('f', '\x0c'), ('n', '\n'), ('r', '\r'),
    ('t', '\t'), ('v', '\x0b')]

/-- The text that escapes stand for; a backslash before any other character is itself. -/
def unescape (escapes : List (Char × Char)) : List Char → List Char
  | [] => []
  | '\\' :: c :: rest =>
    match escapes.lookup c with
    | some d => d :: unescape escapes rest
    | none => '\\' :: unescape escapes (c :: rest)
  | c :: rest => c :: unescape escapes rest

/-- A line up to the first `#` after a blank; the flag tells whether a blank stands before. -/
def untilComment (afterBlank : Bool) : List Char → List Char
  | [] => []
  | c :: rest =>
    if afterBlank && c == '#' then [] else c :: untilComment (isBlank c) rest

def readQuoted (quote : Char) (escapes : List (Char × Char)) (rest : Rest) :
    Except Rest (String × Rest) :=
  match untilQuote quote rest with
  | some (inner, after) => .ok (String.ofList (unescape escapes inner), after)
  | none => .error (quote :: rest)

/-- The value that a line without quotes holds: what stands before its comment. A `#` right after
the equals sign belongs to the value, and one after a blank does not. -/
def plainValue (line : List Char) : String :=
  String.ofList (strip (untilComment false line))

def readValue (cs : Rest) : Except Rest (String × Rest) :=
  match skipSpaces cs with
  | '\'' :: rest => readQuoted '\'' singleEscapes rest
  | '"' :: rest => readQuoted '"' doubleEscapes rest
  | _ => .ok (plainValue (cs.takeWhile inLine), cs.dropWhile inLine)

def readAssigned (cs : Rest) : Except Rest (Option String × Rest) :=
  match skipSpaces cs with
  | '=' :: rest => do
    let (value, rest) ← readValue rest
    return (some value, rest)
  | rest => .ok (none, rest)

/-! ## Files -/

/-- Reads the entry of a line, of which a comment has none. -/
def readEntry (cs : Rest) : Except Rest (Option Entry × Rest) := do
  let (name, rest) ← readName (skipExport cs)
  let (value, rest) ← readAssigned rest
  let rest ← endLine (skipComment rest)
  return (name.map fun n => (n, value), rest)

/-- The entry of a line that starts here and what follows the line. -/
def nextLine (cs : Rest) : Option Entry × List Char :=
  match readEntry cs with
  | .ok r => r
  | .error rest => (none, skipLine rest)

def entriesFrom (cs : Rest) : List Entry :=
  match cs.dropWhile isBlank with
  | [] => []
  | line =>
    let (entry, rest) := nextLine line
    if rest.length < cs.length then entry.toList ++ entriesFrom rest else entry.toList
termination_by cs.length

def entries (text : String) : List Entry :=
  entriesFrom (unifyLineEnds (dropMark text.toList))

end Parley.EnvFile
