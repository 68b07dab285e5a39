import Beatmap.Chart.Fault
import Beatmap.Number.Integer
import Beatmap.Text.Pieces

/-!
# The events section

Two kinds of events are read: the background image, `0,0,"file"`, and break periods, `2,start,end`.
All other lines are storyboard commands and are skipped.

`Event.read` matches the comma-separated pieces of a line, so the presence of the third piece of a
background needs no check of its own.
-/

namespace Beatmap

open Beatmap.Text Beatmap.Number

/-- A pause in play, in milliseconds from the start of the audio. -/
structure BreakPeriod where
  start : Int32
  stop : Int32
  deriving DecidableEq, Repr, Inhabited

/-- An event that is read: a background or a break. -/
inductive Event where
  | background (filename : String)
  | pause (period : BreakPeriod)
  deriving DecidableEq, Repr

/-- The accumulated events of a chart. -/
structure Events where
  /-- The last background image. -/
  background : String := ""
  breaks : Array BreakPeriod := #[]
  deriving DecidableEq, Repr

/-- Removes all double quotes at both ends. -/
def trimQuotes (text : List Char) : List Char :=
  ((text.dropWhile (· == '"')).reverse.dropWhile (· == '"')).reverse

/-- Parses a line of the section. -/
def Event.read (line : List Char) : Reading Event :=
  match pieces ',' line with
  | ['0'] :: ['0'] :: filename :: _ =>
    .accepted (.background (String.ofList (trimQuotes (trim filename))))
  | ['2'] :: start :: stop :: _ =>
    match readInt32 (trim start), readInt32 (trim stop) with
    | some start, some stop => .accepted (.pause ⟨start, stop⟩)
    | _, _ => .refused (.unreadableBreak (String.ofList line))
  | ['2'] :: _ :: [] => .refused (.incompleteBreak (String.ofList line))
  | _ => .silent

/-- Adds an event. A background replaces the previous one, a break is appended. -/
def Events.add (events : Events) : Event → Events
  | .background filename => { events with background := filename }
  | .pause period => { events with breaks := events.breaks.push period }

end Beatmap
