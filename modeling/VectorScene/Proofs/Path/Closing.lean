import VectorScene.Proofs.Path.Figures

/-!
# Closing all figures of a path

`Path.closed` puts a `close` at the end of every figure of a path that has none there. It is said of
the commands alone: a figure ends where the next one starts, where it is closed, or with the path.
A pen that closes all its figures builds what it had built, closed (`Pen.build_closeAllFigures`).

Of a path whose figures are known, each figure is closed by itself (`Command.closeFigures_flatten`), and
each then has one `close` (`Command.IsFigure.ended`). Closing a path again changes nothing
(`Path.closed_closed`).
-/

namespace VectorScene

namespace Command

/-- The commands with a `close` at the end of each figure that has none there. -/
def closeFigures : Bool → List Command → List Command
  | isOpen, [] => if isOpen then [close] else []
  | isOpen, c :: cs =>
    (if isOpen && c.isMoveTo then [close] else []) ++ c :: closeFigures (c.leavesOpen isOpen) cs

theorem closeFigures_draws (isOpen : Bool) (segments : List Segment) (cs : List Command) :
    closeFigures isOpen (segments.map draw ++ cs) = segments.map draw ++ closeFigures isOpen cs := by
  induction segments with
  | nil => rfl
  | cons s segments ih =>
    rw [List.map_cons, List.cons_append, closeFigures, leavesOpen, ih]
    cases isOpen <;> rfl

theorem closeFigures_closeFigures (isOpen : Bool) (cs : List Command) :
    closeFigures isOpen (closeFigures isOpen cs) = closeFigures isOpen cs := by
  induction cs generalizing isOpen with
  | nil => cases isOpen <;> rfl
  | cons c cs ih =>
    have hopened : closeFigures (c.leavesOpen isOpen) (closeFigures (c.leavesOpen isOpen) cs) =
        closeFigures (c.leavesOpen isOpen) cs := ih _
    cases c <;> cases isOpen <;> simpa [closeFigures, leavesOpen, isMoveTo] using hopened

/-! ## Figure by figure -/

def isClose : Command → Bool
  | close => true
  | _ => false

/-- The commands of a figure with a `close` at the end, which is put there unless there is one. -/
def ended (cs : List Command) : List Command :=
  if cs.getLast? = some close then cs else cs ++ [close]

theorem ended_figure (start : Point) (segments : List Segment) (closed : Bool) :
    ended (moveTo start :: segments.map draw ++ if closed then [close] else []) =
      moveTo start :: segments.map draw ++ [close] := by
  cases closed with
  | true =>
    rw [ended, if_pos rfl, if_pos List.getLast?_concat]
  | false =>
    have hlast : (moveTo start :: segments.map draw).getLast? ≠ some close := by
      intro h
      simpa using List.mem_of_getLast? h
    rw [ended, if_neg Bool.false_ne_true, List.append_nil, if_neg hlast]

/-- A figure that is ended is a figure with one `close`. -/
theorem IsFigure.ended {cs : List Command} (h : IsFigure cs) :
    IsFigure (ended cs) ∧ (Command.ended cs).countP isClose = 1 := by
  obtain ⟨start, segments, closed, hne, rfl⟩ := h
  rw [ended_figure]
  refine ⟨⟨start, segments, true, hne, rfl⟩, ?_⟩
  have hdraws : (moveTo start :: segments.map draw).countP isClose = 0 := by
    simp [List.countP_eq_zero, isClose]
  rw [List.countP_append, hdraws]
  rfl

theorem countP_isClose_flatten {figures : List (List Command)}
    (h : ∀ cs ∈ figures, cs.countP isClose = 1) : figures.flatten.countP isClose = figures.length := by
  induction figures with
  | nil => rfl
  | cons cs figures ih =>
    obtain ⟨hcs, h⟩ := List.forall_mem_cons.mp h
    rw [List.flatten_cons, List.countP_append, hcs, ih h, List.length_cons, Nat.add_comm]

/-- Where the figures are known, each is closed by itself. -/
theorem closeFigures_flatten {figures : List (List Command)} (h : ∀ cs ∈ figures, IsFigure cs)
    (isOpen : Bool) :
    closeFigures isOpen figures.flatten =
      (if isOpen then [close] else []) ++ (figures.map Command.ended).flatten := by
  induction figures generalizing isOpen with
  | nil => cases isOpen <;> rfl
  | cons cs figures ih =>
    obtain ⟨hcs, h⟩ := List.forall_mem_cons.mp h
    have hrest := ih h
    obtain ⟨start, segments, closed, -, rfl⟩ := hcs
    rw [List.map_cons, List.flatten_cons, List.flatten_cons, ended_figure, List.append_assoc,
      List.cons_append, closeFigures, leavesOpen, closeFigures_draws]
    cases closed with
    | true => cases isOpen <;> simp [closeFigures, leavesOpen, isMoveTo, hrest]
    | false => cases isOpen <;> simp [isMoveTo, hrest]

end Command

/-- The path with all its figures closed. -/
def Path.closed (p : Path) : Path := ⟨Command.closeFigures false p.commands⟩

theorem Path.closed_closed (p : Path) : p.closed.closed = p.closed :=
  congrArg Path.mk (Command.closeFigures_closeFigures false p.commands)

namespace Figure

def close (f : Figure) : Figure := { f with closed := true }

theorem commands_close {f : Figure} (h : f.isDrawn) : f.close.commands = Command.ended f.commands := by
  have hclose : f.close.isDrawn := h
  rw [commands_of_isDrawn hclose, commands_of_isDrawn h, Command.ended_figure]
  rfl

/-- The commands of closed figures are the commands of the figures, closed. -/
theorem flatMap_commands_close (figures : List Figure) :
    (figures.map close).flatMap commands =
      Command.closeFigures false (figures.flatMap commands) := by
  have hfigures : ∀ cs ∈ (figures.filter isDrawn).map commands, Command.IsFigure cs :=
    List.forall_mem_map.mpr fun f hf => isFigure_commands (List.mem_filter.mp hf).2
  have hdrawn : isDrawn ∘ close = isDrawn := rfl
  have hclosed : ∀ f ∈ figures.filter isDrawn, (commands ∘ close) f = (Command.ended ∘ commands) f :=
    fun f hf => commands_close (List.mem_filter.mp hf).2
  rw [flatMap_commands, flatMap_commands, Command.closeFigures_flatten hfigures, List.filter_map, hdrawn,
    List.map_map, List.map_map, List.map_congr_left hclosed]
  rfl

end Figure

/-- A pen that closes all its figures builds what it had built, closed. -/
theorem Pen.build_closeAllFigures (pen : Pen) :
    (pen.marked .closeAllFigures).build = pen.build.closed := by
  have hfigures : (pen.marked .closeAllFigures).figures = pen.figures.map Figure.close := rfl
  rw [build, hfigures, Array.toList_map, Figure.flatMap_commands_close]
  rfl

end VectorScene
