import VectorScene.Proofs.Path.Event

/-!
# The figures of a path as it is read

A `Subpath` is a figure as it is written in a path: a `moveTo`, the segments that follow it at once, and
whether a `close` follows these. `Path.subpaths` lists them in order; all other commands are orphans.
Unlike the figures of a pen, a subpath may have no segment.

* `Event.Bracketed` says which sequences of events a consumer can follow, event by event, and
  `Subpath.bracketed_flatMap_events` that those of subpaths are such;
* `Path.events_eq`: the events of a path are those of its subpaths, one after the other;
* `Path.readBack` is the path that its events say, the same path without its orphans
  (`Path.commands_readBack`), which has the same subpaths (`Path.subpaths_readBack`).
-/

namespace VectorScene

/-- The point at which segments end that are drawn one after the other from a point. -/
def Segment.endOf (source : Point) (segments : List Segment) : Point :=
  segments.foldl (fun _ s => s.target) source

theorem Segment.endOf_append (source : Point) (before after : List Segment) :
    endOf source (before ++ after) = endOf (endOf source before) after := List.foldl_append

/-- A figure as it is written in a path. -/
structure Subpath where
  start : Point
  segments : List Segment
  closed : Bool

namespace Event

/-- The events of segments that are drawn one after the other from a point. -/
def draws : Point → List Segment → List Event
  | _, [] => []
  | source, s :: segments => draw source s :: draws s.target segments

def isStart : Event → Bool
  | start _ => true
  | _ => false

theorem countP_isStart_draws (source : Point) (segments : List Segment) :
    (draws source segments).countP isStart = 0 := by
  induction segments generalizing source with
  | nil => rfl
  | cons s segments ih => exact ih s.target

/-- Whether events can be followed, where `figure` is the first and the last point of the figure that is
open, if one is: a figure is started only when none is open, a segment continues from the last point, and
a figure is finished, at its last and its first point, before the next is started or the events end. -/
inductive Bracketed : (figure : Option (Point × Point)) → List Event → Prop where
  | nil : Bracketed none []
  | start {p : Point} {es : List Event} : Bracketed (some (p, p)) es → Bracketed none (start p :: es)
  | draw {first last : Point} {s : Segment} {es : List Event} :
    Bracketed (some (first, s.target)) es → Bracketed (some (first, last)) (draw last s :: es)
  | finish {first last : Point} {closed : Bool} {es : List Event} :
    Bracketed none es → Bracketed (some (first, last)) (finish last first closed :: es)

namespace Bracketed

theorem append {figure : Option (Point × Point)} {es es' : List Event} (h : Bracketed figure es)
    (h' : Bracketed none es') : Bracketed figure (es ++ es') := by
  induction h with
  | nil => exact h'
  | start _ ih => exact .start ih
  | draw _ ih => exact .draw ih
  | finish _ ih => exact .finish ih

theorem draws {first source : Point} {segments : List Segment} {es : List Event}
    (h : Bracketed (some (first, Segment.endOf source segments)) es) :
    Bracketed (some (first, source)) (Event.draws source segments ++ es) := by
  induction segments generalizing source with
  | nil => exact h
  | cons s segments ih => exact .draw (ih h)

/-- Where a figure is started, what comes before it can be followed by itself. -/
theorem of_append_start {figure : Option (Point × Point)} {before after : List Event} {p : Point}
    (h : Bracketed figure (before ++ .start p :: after)) : Bracketed figure before := by
  induction before generalizing figure with
  | nil =>
    cases h
    exact .nil
  | cons e before ih =>
    cases h with
    | start h => exact .start (ih h)
    | draw h => exact .draw (ih h)
    | finish h => exact .finish (ih h)

end Bracketed

end Event

namespace Subpath

/-- The point at which the last segment ends. -/
def last (f : Subpath) : Point := Segment.endOf f.start f.segments

def events (f : Subpath) : List Event :=
  .start f.start :: (Event.draws f.start f.segments ++ [.finish f.last f.start f.closed])

theorem countP_isStart_events (f : Subpath) : f.events.countP Event.isStart = 1 := by
  rw [events, List.countP_cons, List.countP_append, Event.countP_isStart_draws]
  rfl

theorem countP_isStart_flatMap_events (fs : List Subpath) :
    (fs.flatMap events).countP Event.isStart = fs.length := by
  induction fs with
  | nil => rfl
  | cons f fs ih =>
    rw [List.flatMap_cons, List.countP_append, countP_isStart_events, ih, List.length_cons,
      Nat.add_comm]

theorem bracketed_events (f : Subpath) : Event.Bracketed none f.events :=
  .start (.draws (.finish .nil))

theorem bracketed_flatMap_events (fs : List Subpath) :
    Event.Bracketed none (fs.flatMap events) := by
  induction fs with
  | nil => exact .nil
  | cons f fs ih => exact f.bracketed_events.append ih

end Subpath

namespace Command

/-- The segments with which a list of commands begins. -/
def leading : List Command → List Segment
  | draw s :: cs => s :: leading cs
  | _ => []

/-- Whether a `close` follows the segments with which a list of commands begins. -/
def closesFirst : List Command → Bool
  | draw _ :: cs => closesFirst cs
  | close :: _ => true
  | _ => false

/-- The subpaths of a list of commands: one for each `moveTo`. -/
def subpaths : List Command → List Subpath
  | [] => []
  | moveTo p :: cs => ⟨p, leading cs, closesFirst cs⟩ :: subpaths cs
  | _ :: cs => subpaths cs

/-- The point of a `moveTo`. -/
def start? : Command → Option Point
  | moveTo p => some p
  | _ => none

/-- What is told of a command that is an orphan: only a segment is reported. -/
def report : Command → List Message
  | draw s => [.segmentSkipped s]
  | _ => []

theorem length_subpaths (cs : List Command) : (subpaths cs).length = cs.countP isMoveTo := by
  induction cs with
  | nil => rfl
  | cons c cs ih => cases c <;> simp [subpaths, List.countP_cons, isMoveTo, ih]

theorem map_start_subpaths (cs : List Command) :
    (subpaths cs).map Subpath.start = cs.filterMap start? := by
  induction cs with
  | nil => rfl
  | cons c cs ih => cases c <;> simp [subpaths, List.filterMap_cons, start?, ih]

theorem inFigures_inFigures (isOpen : Bool) (cs : List Command) :
    inFigures isOpen (inFigures isOpen cs) = inFigures isOpen cs := by
  induction cs generalizing isOpen with
  | nil => rfl
  | cons c cs ih =>
    cases c <;> cases isOpen <;> simp [inFigures, isOrphan, leavesOpen, ih]

/-- In an open figure there are no orphans among the segments that follow. -/
theorem leading_inFigures (cs : List Command) :
    leading (inFigures true cs) = leading cs ∧ closesFirst (inFigures true cs) = closesFirst cs := by
  induction cs with
  | nil => exact ⟨rfl, rfl⟩
  | cons c cs ih =>
    cases c with
    | moveTo p => exact ⟨rfl, rfl⟩
    | draw s => exact ⟨congrArg (s :: ·) ih.1, ih.2⟩
    | close => exact ⟨rfl, rfl⟩

/-- Orphans are no part of a subpath. -/
theorem subpaths_inFigures (isOpen : Bool) (cs : List Command) :
    subpaths (inFigures isOpen cs) = subpaths cs := by
  induction cs generalizing isOpen with
  | nil => rfl
  | cons c cs ih =>
    obtain ⟨hleading, hcloses⟩ := leading_inFigures cs
    cases c <;> cases isOpen <;>
      simp [inFigures, isOrphan, leavesOpen, subpaths, ih, hleading, hcloses]

end Command

namespace Path

/-- The figures of the path as they are written. -/
def subpaths (p : Path) : List Subpath := Command.subpaths p.commands

/-- The path that the events of a path say. -/
def readBack (p : Path) : Path := ⟨p.events.flatMap Event.commands⟩

namespace Trace

/-- The events that are still to come of the open figure, if one is. -/
def pending : Option (Point × Point) → List Command → List Event
  | some (first, last), cs =>
    Event.draws last (Command.leading cs) ++
      [.finish (Segment.endOf last (Command.leading cs)) first (Command.closesFirst cs)]
  | none, _ => []

/-- What is read comes after what has been read: first the rest of the open figure, then the subpaths. -/
theorem events_foldl_read (t : Trace) (cs : List Command) :
    ((cs.foldl read t).finish false).events.toList =
      t.events.toList ++ pending t.figure cs ++ (Command.subpaths cs).flatMap Subpath.events := by
  induction cs generalizing t with
  | nil =>
    cases h : t.figure with
    | none => simp [finish, h, pending, Command.subpaths]
    | some figure =>
      simp [finish, h, pending, Command.subpaths, Command.leading, Command.closesFirst, Event.draws,
        Segment.endOf]
  | cons c cs ih =>
    rw [List.foldl_cons, ih]
    -- A command adds an event, or it is what the pending events of the open figure begin with.
    cases c <;> cases h : t.figure <;>
      simp [read, finish, h, pending, Command.subpaths, Command.leading, Command.closesFirst,
        Event.draws, Segment.endOf, Subpath.events, Subpath.last]

end Trace

/-- The events of a path are those of its subpaths, one after the other. -/
theorem events_eq (p : Path) : p.events = p.subpaths.flatMap Subpath.events :=
  Trace.events_foldl_read {} p.commands

theorem commands_readBack (p : Path) :
    p.readBack.commands = Command.inFigures false p.commands := p.commands_events

theorem subpaths_readBack (p : Path) : p.readBack.subpaths = p.subpaths := by
  rw [subpaths, commands_readBack, Command.subpaths_inFigures]
  rfl

theorem length_subpaths (p : Path) : p.subpaths.length = p.figureCount :=
  Command.length_subpaths p.commands

theorem messages_eq (p : Path) :
    p.messages = (Command.orphans false p.commands).flatMap Command.report := by
  rw [messages, skipped_eq]
  induction Command.orphans false p.commands with
  | nil => rfl
  | cons c cs ih =>
    cases c <;> simp [List.filterMap_cons, Command.segment?, Command.report, ih]

/-- A path of any commands is read as a sequence of events that can be followed: those of its subpaths,
each started and finished once. The events say the path without its orphans, of which the segments are
reported, each by one message that names it. Reading that path says the same again, and it has the same
figures. -/
theorem events_bracketed (p : Path) :
    Event.Bracketed none p.events ∧
    p.events = p.subpaths.flatMap Subpath.events ∧
    p.events.countP Event.isStart = p.figureCount ∧
    p.readBack.commands = Command.inFigures false p.commands ∧
    p.messages = (Command.orphans false p.commands).flatMap Command.report ∧
    p.readBack.readBack = p.readBack ∧
    p.readBack.subpaths = p.subpaths := by
  have hcount : p.events.countP Event.isStart = p.figureCount := by
    rw [events_eq, Subpath.countP_isStart_flatMap_events, length_subpaths]
  have hagain : p.readBack.readBack.commands = p.readBack.commands := by
    rw [commands_readBack, commands_readBack, Command.inFigures_inFigures]
  refine ⟨?_, p.events_eq, hcount, p.commands_readBack, p.messages_eq, congrArg mk hagain,
    p.subpaths_readBack⟩
  rw [events_eq]
  exact Subpath.bracketed_flatMap_events p.subpaths

/-- Orphans before and between the figures, a figure without a segment, and one that is closed twice. -/
example :
    (Path.mk [.draw (.line ⟨9, 9⟩), .moveTo ⟨0, 0⟩, .moveTo ⟨1, 0⟩, .draw (.line ⟨2, 0⟩), .close, .close,
      .draw (.line ⟨8, 8⟩)]).events =
      [.start ⟨0, 0⟩, .finish ⟨0, 0⟩ ⟨0, 0⟩ false, .start ⟨1, 0⟩, .draw ⟨1, 0⟩ (.line ⟨2, 0⟩),
        .finish ⟨2, 0⟩ ⟨1, 0⟩ true] := rfl

end Path

end VectorScene
