import VectorScene.Curve
import VectorScene.Log
import VectorScene.Path.Basic

/-!
# Events of a path

A path is read as a sequence of events: each figure is started, drawn and finished exactly once,
each segment is given with the point it continues from, and the end of a figure with its last and
its first point. A segment outside any figure is skipped and kept apart; a `close` outside any figure
says nothing.
-/

namespace VectorScene

inductive Event where
  | start (p : Point)
  | draw (source : Point) (segment : Segment)
  | finish (last first : Point) (closed : Bool)
deriving BEq, DecidableEq, Inhabited

namespace Event

/-- The event with its curve, if it has one, replaced by lines. -/
def flatten (tolerance : Float32) : Event → List Event
  | draw source s =>
    let targets := s.flatten tolerance source
    List.zipWith (fun p q => draw p (.line q)) (source :: targets) targets
  | e => [e]

/-- Whether the figure that the event finishes is closed; `none` for any other event. -/
def closed? : Event → Option Bool
  | finish _ _ closed => some closed
  | _ => none

end Event

/-- A path as far as it has been read. -/
structure Path.Trace where
  events : Array Event := #[]
  /-- The first and the last point of the open figure, if one is open. -/
  figure : Option (Point × Point) := none
  /-- The segments that lay outside any figure. -/
  skipped : Array Segment := #[]

namespace Path.Trace

/-- Finishes the open figure, if there is one. -/
def finish (closed : Bool) (t : Trace) : Trace :=
  match t.figure with
  | some (first, last) =>
    { t with events := t.events.push (.finish last first closed), figure := none }
  | none => t

def read (t : Trace) : Command → Trace
  | .moveTo p =>
    let t := t.finish false
    { t with events := t.events.push (.start p), figure := some (p, p) }
  | .draw s =>
    match t.figure with
    | some (first, last) =>
      { t with events := t.events.push (.draw last s), figure := some (first, s.target) }
    | none => { t with skipped := t.skipped.push s }
  | .close => t.finish true

end Path.Trace

namespace Path

/-- The whole path read, with a figure left open finished as an open one. -/
def trace (p : Path) : Trace := (p.commands.foldl Trace.read {}).finish false

def events (p : Path) : List Event := p.trace.events.toList

/-- The segments that lie outside any figure. -/
def skipped (p : Path) : List Segment := p.trace.skipped.toList

/-- The messages of a path that is read. -/
def messages (p : Path) : List Message := p.skipped.map .segmentSkipped

/-- The events of the path with its curves replaced by lines. -/
def flatEvents (p : Path) (tolerance : Float32) : List Event :=
  p.events.flatMap (Event.flatten tolerance)

end Path

end VectorScene
