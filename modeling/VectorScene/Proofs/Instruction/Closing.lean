import VectorScene.Proofs.Instruction.Advance
import VectorScene.Proofs.Path.Closing

/-!
# Programs that close all figures

Whether a figure is closed is kept with the figure, and its `close` is written when the path is built. So
it does not matter when a figure was left, or in which frames it was drawn: a program that closes all
figures at its end constructs the path of the program before, closed (`Instruction.construct_seq_close`).
-/

namespace VectorScene

namespace Pen

theorem isFigures_build (pen : Pen) : pen.build.IsFigures :=
  ⟨_, Figure.flatMap_commands pen.figures.toList, pen.isFigure_of_mem_drawn⟩

end Pen

namespace Instruction

/-- Closing all figures at the end closes the path that is constructed. -/
theorem construct_seq_close (i : Instruction) :
    (seq i (act .closeAllFigures)).construct = i.construct.map Path.closed := by
  rw [construct_eq_advance, construct_eq_advance, advance_seq]
  cases i.advance {} with
  | error e => rfl
  | ok pen => exact congrArg Except.ok pen.build_closeAllFigures

theorem isFigures_of_construct {i : Instruction} {p : Path} (h : i.construct = .ok p) :
    p.IsFigures := by
  rw [construct_eq_advance] at h
  obtain ⟨pen, -, rfl⟩ := map_eq_ok_iff.mp h
  exact pen.isFigures_build

/-- Closing all figures fails only where the program before fails, and with its error. Else each figure
that was drawn, whenever it was left, has one `close` at its end, which is put there unless it has one,
and all else stays as it is. Closing all figures again changes nothing. -/
theorem construct_seq_closeAllFigures (i : Instruction) :
    (∀ e, (seq i (act .closeAllFigures)).construct = .error e ↔ i.construct = .error e) ∧
    (∀ p, i.construct = .ok p → ∃ figures : List (List Command),
      p.commands = figures.flatten ∧ (∀ cs ∈ figures, Command.IsFigure cs) ∧
      (seq i (act .closeAllFigures)).construct = .ok ⟨(figures.map Command.ended).flatten⟩ ∧
      (∀ cs ∈ figures.map Command.ended, Command.IsFigure cs ∧ cs.countP Command.isClose = 1) ∧
      (figures.map Command.ended).flatten.countP Command.isClose = p.figureCount) ∧
    (seq (seq i (act .closeAllFigures)) (act .closeAllFigures)).construct =
      (seq i (act .closeAllFigures)).construct := by
  refine ⟨fun e => ?_, fun p hp => ?_, ?_⟩
  · rw [construct_seq_close]
    cases i.construct with
    | error e' => exact Iff.rfl
    | ok p => exact iff_of_false nofun nofun
  · obtain ⟨figures, hcommands, hfigures⟩ := isFigures_of_construct hp
    have hended : ∀ cs ∈ figures.map Command.ended,
        Command.IsFigure cs ∧ cs.countP Command.isClose = 1 :=
      List.forall_mem_map.mpr fun cs hcs => (hfigures cs hcs).ended
    refine ⟨figures, hcommands, hfigures, ?_, hended, ?_⟩
    · rw [construct_seq_close, hp]
      show Except.ok (Path.mk (Command.closeFigures false p.commands)) = _
      rw [hcommands, Command.closeFigures_flatten hfigures]
      rfl
    · rw [Command.countP_isClose_flatten fun cs hcs => (hended cs hcs).2, List.length_map,
        Path.figureCount, hcommands, Command.countP_isMoveTo_flatten hfigures]
  · rw [construct_seq_close, construct_seq_close]
    cases i.construct with
    | error e => rfl
    | ok p => exact congrArg Except.ok p.closed_closed

/-- A line that is left for a figure in another frame, in which a triangle is closed, and a line that
starts in one frame and is continued in another. -/
def partlyClosed : Instruction :=
  .sequence
    [moveTo ⟨0, 0⟩, lineTo ⟨1, 0⟩, act .startFigure,
      within (.scale 2 2) (polygon [⟨1, 1⟩, ⟨2, 1⟩, ⟨1, 2⟩]),
      moveTo ⟨5, 0⟩, lineTo ⟨6, 0⟩, within (.translation 0 3) (lineTo ⟨6, 0⟩)]

theorem construct_partlyClosed_closeAllFigures :
    ∃ p q, partlyClosed.construct = .ok p ∧
      (seq partlyClosed (act .closeAllFigures)).construct = .ok q ∧
      p.commands.countP Command.isClose = 1 ∧ q.commands.countP Command.isClose = 3 ∧
      p.figureCount = 3 ∧ q.IsFigures := by
  obtain ⟨p, hp⟩ : ∃ p, partlyClosed.construct = .ok p := exists_of_isOk (by decide +kernel)
  obtain ⟨figures, -, -, hq, hended, hcount⟩ := (construct_seq_closeAllFigures partlyClosed).2.1 p hp
  have hcloses : (partlyClosed.construct.toOption.map fun p =>
      p.commands.countP Command.isClose) = some 1 := by decide +kernel
  have hfigures : partlyClosed.construct.toOption.map Path.figureCount = some 3 := by decide +kernel
  rw [hp] at hcloses hfigures
  have hthree : p.figureCount = 3 := Option.some.inj hfigures
  exact ⟨p, _, hp, hq, Option.some.inj hcloses, hcount.trans hthree, hthree, _, rfl,
    fun cs hcs => (hended cs hcs).1⟩

end Instruction

end VectorScene
