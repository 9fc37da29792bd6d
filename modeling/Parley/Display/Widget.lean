import Parley.Fault

/-!
# Widgets

What is put on a terminal: texts, formatted texts, sources, tables, and groups and panels of them. A
widget says what is shown and in which style; drawing it is the terminal's work.

A terminal is known by what it refuses only. It may refuse anything, for any reason of its own: a
style that it does not know, a rate that it cannot keep, a text with tags that do not match.
-/

namespace Parley.Display

structure Column where
  heading : String
  style : Option String := none

/-- A table; `lines` tells whether its rows are separated by lines, `expand` whether it is as wide
as the terminal. -/
structure Table where
  title : String
  lines : Bool
  expand : Bool
  columns : List Column
  rows : List (List Value)

inductive Widget where
  | plain (content : String)
  | text (content style : String)
  | markdown (content : String) (codeTheme inlineCodeTheme : Value)
  | source (content language theme background : String)
  | table (table : Table)
  | group (parts : List Widget)
  | panel (content : Widget) (title : Option String) (border : Value)
      (padding : Option (Nat × Nat))

inductive LiveEvent where
  | opened (panel : Widget) (refreshRate : Value)
  | updated (panel : Widget)
  | closed

structure Terminal where
  /-- The failure of the latest of the changes of a live display, which come latest first. -/
  refusal : List LiveEvent → Option VendorFailure := fun _ => none
  /-- The failure of printing a widget. -/
  printRefusal : Widget → Option VendorFailure := fun _ => none

def failing : Option VendorFailure → Outcome Unit
  | some failure => .error (.foreign failure)
  | none => .ok ()

end Parley.Display
