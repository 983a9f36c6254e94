import VectorScene.Path.Event

/-!
# Reading a path back

A command that continues or closes a figure when none is open is an orphan. The events of a path say
what the path is but for its orphans:

* `Path.commands_events`: the events read back as commands are the commands that are no orphans;
* `Path.skipped_eq`: the segments that are skipped are the orphans that are segments.

Both follow from what one command does to a trace (`commands_read`, `skipped_read`), where a trace
is looked at only as far as whether a figure is open.
-/

namespace VectorScene

namespace Command

/-- The segment of a `draw`. -/
def segment? : Command → Option Segment
  | draw s => some s
  | _ => none

/-- Whether the command needs an open figure and has none. -/
def isOrphan (isOpen : Bool) : Command → Bool
  | moveTo _ => false
  | _ => !isOpen

/-- Whether a figure is open after the command. -/
def leavesOpen (isOpen : Bool) : Command → Bool
  | moveTo _ => true
  | draw _ => isOpen
  | close => false

/-- The commands of a list that are orphans. -/
def orphans : Bool → List Command → List Command
  | _, [] => []
  | isOpen, c :: cs => (if c.isOrphan isOpen then [c] else []) ++ orphans (c.leavesOpen isOpen) cs

/-- The commands of a list that are no orphans. -/
def inFigures : Bool → List Command → List Command
  | _, [] => []
  | isOpen, c :: cs => (if c.isOrphan isOpen then [] else [c]) ++ inFigures (c.leavesOpen isOpen) cs

theorem orphans_append (isOpen : Bool) (cs ds : List Command) :
    orphans isOpen (cs ++ ds) = orphans isOpen cs ++ orphans (cs.foldl leavesOpen isOpen) ds := by
  induction cs generalizing isOpen with
  | nil => rfl
  | cons c cs ih => rw [List.cons_append, orphans, ih, orphans, List.append_assoc, List.foldl_cons]

theorem inFigures_of_orphans_eq_nil {isOpen : Bool} {cs : List Command}
    (h : orphans isOpen cs = []) : inFigures isOpen cs = cs := by
  induction cs generalizing isOpen with
  | nil => rfl
  | cons c cs ih =>
    rw [orphans, List.append_eq_nil_iff] at h
    obtain ⟨hc, hcs⟩ := h
    rw [inFigures, ih hcs]
    split
    · rename_i horphan
      rw [if_pos horphan] at hc
      cases hc
    · rfl

end Command

/-- The commands that an event stands for. -/
def Event.commands : Event → List Command
  | start p => [.moveTo p]
  | draw _ s => [.draw s]
  | finish _ _ closed => if closed then [.close] else []

namespace Path.Trace

/-! ## One command -/

/-- The events so far, read back. -/
def commands (t : Trace) : List Command := t.events.toList.flatMap Event.commands

theorem commands_push (t : Trace) (e : Event) (figure : Option (Point × Point)) (skipped : Array Segment) :
    commands { events := t.events.push e, figure, skipped } = t.commands ++ e.commands := by
  simp [commands]

theorem commands_finish (t : Trace) (closed : Bool) :
    (t.finish closed).commands =
      t.commands ++ if closed && t.figure.isSome then [.close] else [] := by
  cases h : t.figure with
  | none => simp [finish, h]
  | some figure =>
    obtain ⟨first, last⟩ := figure
    simp [finish, h, commands_push, Event.commands]

theorem figure_finish (t : Trace) (closed : Bool) : (t.finish closed).figure = none := by
  cases h : t.figure <;> simp [finish, h]

theorem skipped_finish (t : Trace) (closed : Bool) : (t.finish closed).skipped = t.skipped := by
  cases h : t.figure <;> simp [finish, h]

theorem isSome_figure_read (t : Trace) (c : Command) :
    (t.read c).figure.isSome = c.leavesOpen t.figure.isSome := by
  cases c with
  | moveTo p => rfl
  | draw s => cases h : t.figure <;> simp [read, h, Command.leavesOpen]
  | close => simp [read, figure_finish, Command.leavesOpen]

theorem commands_read (t : Trace) (c : Command) :
    (t.read c).commands = t.commands ++ if c.isOrphan t.figure.isSome then [] else [c] := by
  cases c with
  | moveTo p => simp [read, commands_push, commands_finish, Event.commands, Command.isOrphan]
  | draw s =>
    cases h : t.figure with
    | none => simp [read, h, Command.isOrphan, commands]
    | some figure => simp [read, h, Command.isOrphan, commands_push, Event.commands]
  | close => cases h : t.figure <;> simp [read, h, Command.isOrphan, commands_finish]

theorem skipped_read (t : Trace) (c : Command) :
    (t.read c).skipped.toList = t.skipped.toList ++
      (if c.isOrphan t.figure.isSome then [c] else []).filterMap Command.segment? := by
  cases c with
  | moveTo p => simp [read, skipped_finish, Command.isOrphan]
  | draw s => cases h : t.figure <;> simp [read, h, Command.isOrphan, Command.segment?]
  | close => cases t.figure <;> simp [read, skipped_finish, Command.isOrphan, Command.segment?]

/-! ## All commands -/

theorem commands_foldl_read (t : Trace) (cs : List Command) :
    (cs.foldl read t).commands = t.commands ++ Command.inFigures t.figure.isSome cs := by
  induction cs generalizing t with
  | nil => rw [List.foldl_nil, Command.inFigures, List.append_nil]
  | cons c cs ih =>
    rw [List.foldl_cons, ih, commands_read, isSome_figure_read, Command.inFigures,
      List.append_assoc]

theorem skipped_foldl_read (t : Trace) (cs : List Command) :
    (cs.foldl read t).skipped.toList =
      t.skipped.toList ++ (Command.orphans t.figure.isSome cs).filterMap Command.segment? := by
  induction cs generalizing t with
  | nil => exact (List.append_nil _).symm
  | cons c cs ih =>
    rw [List.foldl_cons, ih, skipped_read, isSome_figure_read, Command.orphans, List.filterMap_append,
      List.append_assoc]

end Path.Trace

namespace Path

/-- The events of a path, read back, are its commands without the orphans. -/
theorem commands_events (p : Path) :
    p.events.flatMap Event.commands = Command.inFigures false p.commands := by
  show (Trace.finish false _).commands = _
  rw [Trace.commands_finish, Trace.commands_foldl_read]
  simp [Trace.commands]

/-- A path skips the segments that are orphans. -/
theorem skipped_eq (p : Path) :
    p.skipped = (Command.orphans false p.commands).filterMap Command.segment? := by
  show (Trace.finish false _).skipped.toList = _
  rw [Trace.skipped_finish, Trace.skipped_foldl_read]
  rfl

end Path

end VectorScene
