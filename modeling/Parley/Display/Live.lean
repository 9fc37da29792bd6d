import Parley.Display.Reply
import Parley.Stream.Collect

/-!
# Showing a stream live

A live printer shows a streamed reply while it arrives: after every chunk the panel is replaced by
one that shows all there is so far. The last panel, after the chunk that completes the reply or at
the end of the stream, has a style of its own and shows the metadata too. The display is closed at
the end of the printing, also where something fails; a failure to close it counts before any other.
-/

namespace Parley.Display

open Parley.Stream

structure LiveStyle where
  title : Value := .str "Streaming Response"
  showMetadata : Value := .bool true
  themes : Themes := {}
  refreshRate : Value := .int 30
  showFinalTitle : Value := .bool true
  border : Value := .str "blue"
  terminal : Terminal := {}

namespace LiveStyle

/-- Builds a style from named options. Where the display appears is the terminal's business. -/
def build (given : Fields) : Outcome LiveStyle := do
  checkAttributes [] ["title", "show_metadata", "code_theme", "inline_code_theme",
    "refresh_rate", "show_final_title", "border_style", "output"] given
  let s : LiveStyle := {}
  return {
    title := given.valueOr "title" s.title
    showMetadata := given.valueOr "show_metadata" s.showMetadata
    themes := ⟨given.valueOr "code_theme" s.themes.code,
      given.valueOr "inline_code_theme" s.themes.inlineCode⟩
    refreshRate := given.valueOr "refresh_rate" s.refreshRate
    showFinalTitle := given.valueOr "show_final_title" s.showFinalTitle
    border := given.valueOr "border_style" s.border }

def titleOf (s : LiveStyle) (final : Bool) : Outcome String :=
  if final && s.showFinalTitle.truthy then .ok (bold "Final Response")
  else s.title.spelled.map bold

def content (s : LiveStyle) (final : Bool) (m : Message) : Outcome Widget := do
  match ← bodyWidgets s.themes m.toValue with
  | [] => return notice "(waiting for response...)"
  | parts =>
    let metadata ← if final && s.showMetadata.truthy then metadataWidget m.toValue else .ok none
    return .group (parts ++ metadata.toList)

def panel (s : LiveStyle) (final : Bool) (a : Accumulator) : Outcome Widget := do
  let title ← s.titleOf final
  let content ← s.content final (← a.result)
  return .panel content (some title) (if final then .str "green" else s.border) padding

/-- Puts the panel of the message so far on the terminal, after the given changes of the display. -/
def update (s : LiveStyle) (changes : List LiveEvent) (final : Bool) (a : Accumulator) :
    Outcome Widget := do
  let panel ← s.panel final a
  failing (s.terminal.refusal (.updated panel :: changes))
  return panel

/-- The opening of the display, before anything has arrived. -/
def opening (s : LiveStyle) : LiveEvent :=
  .opened (.panel (.plain "") none s.border none) s.refreshRate

end LiveStyle

/-- A printer of streams and what it holds of the stream it printed last. -/
structure LivePrinter where
  style : LiveStyle := {}
  accumulator : Accumulator := .empty

def LivePrinter.fullText (p : LivePrinter) : Outcome String :=
  p.accumulator.text

/-- What showing chunks gives: the accumulator at the end, the count of chunks read, the panels
shown, and the fault that ended it early. -/
structure Shown where
  accumulator : Accumulator
  consumed : Nat
  updates : List Widget := []
  fault : Option Fault := none

def Shown.after (shown : Shown) (panel : Widget) : Shown :=
  { shown with updates := panel :: shown.updates }

def LiveStyle.showEnd (s : LiveStyle) (changes : List LiveEvent) (a : Accumulator)
    (consumed : Nat) (failure : Option VendorFailure) : Shown :=
  match failure with
  | some failure => { accumulator := a, consumed := consumed, fault := some (.foreign failure) }
  | none =>
    match s.update changes true a with
    | .ok panel => { accumulator := a, consumed := consumed, updates := [panel] }
    | .error fault => { accumulator := a, consumed := consumed, fault := some fault }

/-- Shows chunks until one completes the stream, after the given changes of the display, which come
latest first. Nulls are passed over. -/
def LiveStyle.showFrom (s : LiveStyle) (changes : List LiveEvent) (a : Accumulator)
    (consumed : Nat) (failure : Option VendorFailure) : List Value → Shown
  | [] => s.showEnd changes a consumed failure
  | chunk :: rest =>
    if chunk.isNull then s.showFrom changes a (consumed + 1) failure rest
    else
      match feed chunk a with
      | (a, .error fault) => { accumulator := a, consumed := consumed + 1, fault := some fault }
      | (a, .ok ()) =>
        match s.update changes a.isComplete a with
        | .error fault => { accumulator := a, consumed := consumed + 1, fault := some fault }
        | .ok panel =>
          if a.isComplete then { accumulator := a, consumed := consumed + 1, updates := [panel] }
          else
            (s.showFrom (.updated panel :: changes) a (consumed + 1) failure rest).after panel

/-- What printing a stream gives: the printer afterwards, the changes of the display, the count of
chunks read, and the assembled message. -/
structure Printed where
  printer : LivePrinter
  events : List LiveEvent
  consumed : Nat
  outcome : Outcome Message

/-- What was shown, or the fault that kept it from being so. -/
def Shown.result (shown : Shown) : Outcome Message :=
  match shown.fault with
  | some fault => .error fault
  | none => shown.accumulator.result

def LivePrinter.close (p : LivePrinter) (shown : Shown) : Printed :=
  let changes := p.style.opening :: shown.updates.map .updated
  { printer := { p with accumulator := shown.accumulator }
    events := changes ++ [.closed]
    consumed := shown.consumed
    outcome := do
      failing (p.style.terminal.refusal (.closed :: changes.reverse))
      shown.result }

/-- Prints a stream. The printer starts anew, whatever it printed before. A display that cannot be
opened reads nothing of the stream. -/
def LivePrinter.print (p : LivePrinter) (source : Source) : Printed :=
  match p.style.terminal.refusal [p.style.opening] with
  | some failure =>
    { printer := { p with accumulator := .empty }
      events := []
      consumed := 0
      outcome := .error (.foreign failure) }
  | none =>
    p.close (p.style.showFrom [p.style.opening] .empty 0 source.failure source.chunks)

end Parley.Display
