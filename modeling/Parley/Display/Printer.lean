import Parley.Display.Reply

/-!
# Printing a reply

A printer shows one complete message in one panel.
-/

namespace Parley.Display

structure Printer where
  title : Value := .str "Response"
  showMetadata : Value := .bool true
  themes : Themes := {}
  border : Value := .str "green"
  /-- Where the printer prints, the terminal if that is nothing. -/
  output : Value := .null
  terminal : Terminal := {}

namespace Printer

def build (given : Fields) : Outcome Printer := do
  checkAttributes []
    ["title", "show_metadata", "code_theme", "inline_code_theme", "border_style", "output"] given
  let p : Printer := {}
  return {
    title := given.valueOr "title" p.title
    showMetadata := given.valueOr "show_metadata" p.showMetadata
    themes := ⟨given.valueOr "code_theme" p.themes.code,
      given.valueOr "inline_code_theme" p.themes.inlineCode⟩
    border := given.valueOr "border_style" p.border
    output := given.valueOr "output" p.output }

/-- The title of a reply's panel; it names the provider if that is known. -/
def titleOf (p : Printer) (reply : Value) : Outcome String := do
  let title ← p.title.spelled
  let provider ← (← reply.attr "metadata").get "provider"
  if provider.truthy then
    return bold title ++ " [dim](" ++ (← provider.spelled) ++ ")[/dim]"
  else return bold title

/-- The parts of a reply that are shown, without its metadata. -/
def body (p : Printer) (reply : Value) : Outcome (List Widget) := do
  match ← bodyWidgets p.themes reply with
  | [] => return [notice "(empty response)"]
  | parts => return parts

def panel (p : Printer) (reply : Value) : Outcome Widget := do
  let title ← p.titleOf reply
  let body ← p.body reply
  let metadata ← if p.showMetadata.truthy then metadataWidget reply else .ok none
  return .panel (.group (body ++ metadata.toList)) (some title) p.border padding

/-- Prints a reply and gives the panel. No value that can be given as the output can print. -/
def print (p : Printer) (reply : Value) : Outcome Widget := do
  let panel ← p.panel reply
  if p.output.truthy then p.output.callMissing "print"
  else
    failing (p.terminal.printRefusal panel)
    return panel

end Printer

end Parley.Display
