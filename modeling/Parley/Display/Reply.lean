import Parley.Display.Widget
import Parley.Json.Writer
import Parley.Message.Arguments
import Parley.Message.Usage

/-!
# Showing a reply

The widgets of an assistant message: its text as formatted text, its calls as a table, its metadata
and usage as indented JSON in a panel of their own. The bookkeeping of streams is not shown. A reply
is read by its attributes, so an object of a vendor's that has those of a message can be shown too.
-/

namespace Parley.Display

structure Themes where
  code : Value := .str "coffee"
  inlineCode : Value := .str "monokai"

def bold (text : String) : String :=
  "[bold]" ++ text ++ "[/bold]"

def contentWidget (themes : Themes) (content : Value) : Outcome (Option Widget) :=
  if content.truthy then
    match content with
    | .str s =>
      if Text.allBlank s.toList then .ok none
      else .ok (some (.markdown s themes.code themes.inlineCode))
    | _ => content.callMissing "strip"
  else .ok none

def callRow (call : Value) : Outcome (List Value) := do
  let id ← call.attr "id"
  let name ← call.attr "function_name"
  return [id, name, ← call.attr "arguments_json"]

def callTable (rows : List (List Value)) : Table where
  title := "Tool calls"
  lines := false
  expand := true
  columns := [⟨"id", some "dim"⟩, ⟨"function", some "bold cyan"⟩, ⟨"arguments", none⟩]
  rows := rows

def callsWidget (calls : Value) : Outcome (Option Widget) :=
  if calls.truthy then return some (.table (callTable (← (← calls.items).mapM callRow)))
  else .ok none

def bodyWidgets (themes : Themes) (reply : Value) : Outcome (List Widget) := do
  let content ← contentWidget themes (← reply.attr "content")
  let calls ← callsWidget (← reply.attr "tool_calls")
  return content.toList ++ calls.toList

def bookkeeping : List String := ["is_stream_chunk", "tool_call_indices"]

def usageEntry (usage : TokenUsage) : Value :=
  .dict [("prompt_tokens", usage.prompt), ("completion_tokens", usage.completion),
    ("total_tokens", usage.total)]

/-- The entries of a metadata dictionary that are shown. -/
def shownEntries (metadata : Value) : Outcome Fields :=
  match metadata with
  | .dict fields => .ok (fields.filter fun f => !bookkeeping.contains f.1)
  | _ => metadata.callMissing "items"

/-- The metadata of a reply that is shown, with the usage if it is known. -/
def shownMetadata (reply : Value) : Outcome Fields := do
  let fields ← shownEntries (← reply.attr "metadata")
  let usage ← reply.attr "usage"
  if usage.isNull then return fields
  else return Fields.put fields "usage" (usageEntry (← TokenUsage.ofAttributes usage))

def metadataPanel (fields : Fields) : Widget :=
  .panel (.source (Json.display (.dict fields)) "json" "lightbulb" "default")
    (some (bold "Metadata")) (.str "dim") none

/-- The widget of a reply's metadata, unless there is none. Numbers with too many digits in it have
no text. -/
def metadataWidget (reply : Value) : Outcome (Option Widget) := do
  let fields ← shownMetadata reply
  if fields.isEmpty then return none
  else if (Value.dict fields).printable then return some (metadataPanel fields)
  else misuse .content

def notice (text : String) : Widget :=
  .text text "dim italic"

def padding : Option (Nat × Nat) := some (1, 2)

end Parley.Display
