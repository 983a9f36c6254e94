import VectorScene.Proofs.Path.Event
import VectorScene.Proofs.Pen.Tidy

/-!
# Paths made of figures

A path is whole if its commands are figures one after the other: each is one `moveTo`, then at least
one segment, then at most one `close`. Nothing in such a path is an orphan, so a whole path is read
without skipping anything (`Whole.of_figures`).

A pen that is tidy builds a whole path (`Pen.Tidy.whole_build`), with a figure for each of its figures
that has a segment. Since every run of actions leaves a pen tidy, and the pen of an instruction is
left by such a run, both always give whole paths.
-/

namespace VectorScene

/-- One `moveTo`, at least one segment, and at most one `close`. -/
def Command.IsFigure (cs : List Command) : Prop :=
  ∃ (start : Point) (segments : List Segment) (closed : Bool), segments ≠ [] ∧
    cs = .moveTo start :: segments.map .draw ++ if closed then [.close] else []

/-- Whether a path consists of figures. -/
def Path.IsFigures (p : Path) : Prop :=
  ∃ figures : List (List Command), p.commands = figures.flatten ∧ ∀ cs ∈ figures, Command.IsFigure cs

/-- A path of figures with finite points, which is read as it is written. -/
structure Path.Whole (p : Path) : Prop where
  figures : ∃ figures : List (List Command),
    p.commands = figures.flatten ∧ p.figureCount = figures.length ∧ ∀ cs ∈ figures, Command.IsFigure cs
  finite : ∀ q ∈ p.points, q.isFinite
  skipped : p.skipped = []
  events : p.events.flatMap Event.commands = p.commands

theorem Path.Whole.isFigures {p : Path} (h : p.Whole) : p.IsFigures := by
  obtain ⟨figures, hp, -, hfigures⟩ := h.figures
  exact ⟨figures, hp, hfigures⟩

namespace Command

theorem orphans_draws (segments : List Segment) : orphans true (segments.map draw) = [] := by
  induction segments with
  | nil => rfl
  | cons s segments ih => rw [List.map_cons, orphans, leavesOpen, ih]; rfl

theorem foldl_leavesOpen_draws (isOpen : Bool) (segments : List Segment) :
    (segments.map draw).foldl leavesOpen isOpen = isOpen := by
  induction segments with
  | nil => rfl
  | cons s segments ih => exact ih

theorem IsFigure.orphans_eq_nil {cs : List Command} (h : IsFigure cs) (isOpen : Bool) :
    orphans isOpen cs = [] := by
  obtain ⟨start, segments, closed, -, rfl⟩ := h
  rw [List.cons_append, orphans, leavesOpen, orphans_append, orphans_draws, foldl_leavesOpen_draws]
  cases closed <;> rfl

theorem IsFigure.countP_isMoveTo {cs : List Command} (h : IsFigure cs) : cs.countP isMoveTo = 1 := by
  obtain ⟨start, segments, closed, -, rfl⟩ := h
  have hdraws : (segments.map draw).countP isMoveTo = 0 := by
    simp [List.countP_eq_zero, isMoveTo]
  rw [List.cons_append, List.countP_cons, List.countP_append, hdraws]
  cases closed <;> rfl

theorem orphans_flatten {figures : List (List Command)} (h : ∀ cs ∈ figures, IsFigure cs)
    (isOpen : Bool) : orphans isOpen figures.flatten = [] := by
  induction figures generalizing isOpen with
  | nil => rfl
  | cons cs figures ih =>
    obtain ⟨hcs, h⟩ := List.forall_mem_cons.mp h
    rw [List.flatten_cons, orphans_append, hcs.orphans_eq_nil, ih h, List.append_nil]

theorem countP_isMoveTo_flatten {figures : List (List Command)} (h : ∀ cs ∈ figures, IsFigure cs) :
    figures.flatten.countP isMoveTo = figures.length := by
  induction figures with
  | nil => rfl
  | cons cs figures ih =>
    obtain ⟨hcs, h⟩ := List.forall_mem_cons.mp h
    rw [List.flatten_cons, List.countP_append, hcs.countP_isMoveTo, ih h, List.length_cons,
      Nat.add_comm]

end Command

/-- Figures with finite points make a whole path. -/
theorem Path.Whole.of_figures {figures : List (List Command)} (h : ∀ cs ∈ figures, Command.IsFigure cs)
    (hfinite : ∀ cs ∈ figures, ∀ c ∈ cs, ∀ q ∈ c.points, q.isFinite) :
    Path.Whole ⟨figures.flatten⟩ := by
  have horphans := Command.orphans_flatten h false
  refine ⟨⟨figures, rfl, Command.countP_isMoveTo_flatten h, h⟩, ?_, ?_, ?_⟩
  · intro q hq
    obtain ⟨c, hc, hq⟩ := List.mem_flatMap.mp hq
    obtain ⟨cs, hcs, hc⟩ := List.mem_flatten.mp hc
    exact hfinite cs hcs c hc q hq
  · rw [skipped_eq, horphans]; rfl
  · rw [commands_events, Command.inFigures_of_orphans_eq_nil horphans]

/-! ## Figures of a pen -/

namespace Figure

/-- Whether the figure is part of the path that is built. -/
def isDrawn (f : Figure) : Bool := !f.segments.isEmpty

theorem commands_of_isDrawn {f : Figure} (h : f.isDrawn) :
    f.commands =
      .moveTo f.start :: f.segments.toList.map .draw ++ if f.closed then [.close] else [] := by
  rw [isDrawn, Bool.not_eq_true'] at h
  rw [commands, h]; rfl

theorem isDrawn_of_append_segments {f : Figure} (h : f.isDrawn) (segments : List Segment) :
    Figure.isDrawn { f with segments := f.segments ++ segments } := by
  simp only [isDrawn, Bool.not_eq_true', Array.isEmpty_eq_false_iff] at h ⊢
  intro hempty
  have hlist := congrArg Array.toList hempty
  rw [Array.toList_appendList, List.append_eq_nil_iff] at hlist
  exact h (Array.toList_eq_nil_iff.mp hlist.1)

theorem commands_of_not_isDrawn {f : Figure} (h : f.isDrawn = false) : f.commands = [] := by
  rw [isDrawn, Bool.not_eq_false'] at h
  rw [commands, if_pos h]

theorem isFigure_commands {f : Figure} (h : f.isDrawn) : Command.IsFigure f.commands := by
  refine ⟨f.start, f.segments.toList, f.closed, fun hnil => ?_, commands_of_isDrawn h⟩
  rw [Array.toList_eq_nil_iff] at hnil
  rw [isDrawn, hnil] at h
  cases h

theorem Finite.commands {f : Figure} (h : f.Finite) : ∀ c ∈ f.commands, ∀ q ∈ c.points, q.isFinite := by
  intro c hc
  cases hd : f.isDrawn with
  | false => rw [commands_of_not_isDrawn hd] at hc; cases hc
  | true =>
    rw [commands_of_isDrawn hd] at hc
    rcases List.mem_append.mp hc with hc | hc
    · rcases List.mem_cons.mp hc with rfl | hc
      · exact List.forall_mem_singleton.mpr h.1
      · obtain ⟨s, hs, rfl⟩ := List.mem_map.mp hc
        exact h.2 s (Array.mem_toList_iff.mp hs)
    · split at hc
      · rw [List.mem_singleton.mp hc]
        nofun
      · cases hc

/-- The commands of figures are those of the figures that are drawn. -/
theorem flatMap_commands (figures : List Figure) :
    figures.flatMap Figure.commands = ((figures.filter isDrawn).map Figure.commands).flatten := by
  induction figures with
  | nil => rfl
  | cons f figures ih =>
    rw [List.flatMap_cons, ih]
    cases hd : f.isDrawn with
    | false => rw [List.filter_cons_of_neg (by simp [hd]), commands_of_not_isDrawn hd]; rfl
    | true => rw [List.filter_cons_of_pos hd]; rfl

end Figure

namespace Pen

/-- The last figure is drawn last. -/
theorem commands_build_of_push {pen : Pen} {earlier : Array Figure} {f : Figure}
    (h : pen.figures = earlier.push f) :
    pen.build.commands = earlier.toList.flatMap Figure.commands ++ f.commands := by
  simp [build, h]

theorem isFigure_of_mem_drawn (pen : Pen) :
    ∀ cs ∈ (pen.figures.toList.filter Figure.isDrawn).map Figure.commands, Command.IsFigure cs := by
  intro cs hcs
  obtain ⟨f, hf, rfl⟩ := List.mem_map.mp hcs
  exact Figure.isFigure_commands (List.mem_filter.mp hf).2

theorem figureCount_build (pen : Pen) :
    pen.build.figureCount = pen.figures.toList.countP Figure.isDrawn := by
  rw [Path.figureCount, build, Figure.flatMap_commands,
    Command.countP_isMoveTo_flatten pen.isFigure_of_mem_drawn, List.length_map,
    List.countP_eq_length_filter]

theorem Tidy.whole_build {pen : Pen} (h : pen.Tidy) : pen.build.Whole := by
  rw [build, Figure.flatMap_commands]
  refine .of_figures pen.isFigure_of_mem_drawn fun cs hcs => ?_
  obtain ⟨f, hf, rfl⟩ := List.mem_map.mp hcs
  exact (h.figures f (Array.mem_toList_iff.mp (List.mem_filter.mp hf).1)).commands

/-- A pen is tidy after any actions, and the path that it builds is whole and has a figure for each
of its figures that is drawn. A path that an instruction constructs is one of these. -/
theorem tidy_and_whole :
    (∀ actions, (after actions).Tidy ∧ (after actions).build.Whole ∧
      (after actions).build.figureCount =
        (after actions).figures.toList.countP Figure.isDrawn) ∧
    ∀ i p, Instruction.construct i = .ok p → p.Whole ∧ ∃ actions, p = (after actions).build := by
  have htidy : ∀ actions, (after actions).Tidy := Tidy.new.attemptAll
  refine ⟨fun actions => ⟨htidy actions, (htidy actions).whole_build, figureCount_build _⟩, ?_⟩
  intro i p h
  rw [Instruction.construct_eq] at h
  cases hrun : i.run {} with
  | error e pen => rw [hrun] at h; cases h
  | ok _ pen =>
    rw [hrun] at h; cases h
    obtain ⟨actions, rfl⟩ := Instruction.exists_attemptAll_of_run hrun
    exact ⟨(htidy actions).whole_build, actions, rfl⟩

/-- A closed triangle, an arc that sweeps nothing, and a line in a frame of its own. -/
def threeFigures : Instruction :=
  .sequence
    [.polygon [⟨0, 0⟩, ⟨1, 0⟩, ⟨0, 1⟩], .act (.arcTo ⟨⟨2, 2⟩, ⟨1, 1⟩, 0, 0, 0⟩), .act .startFigure,
      .within (.scale 2 2) (.lineTo ⟨3, 3⟩)]

theorem whole_threeFigures :
    ∃ p, threeFigures.construct = .ok p ∧ p.figureCount = 2 ∧ p.Whole ∧
      ∃ actions, p = (after actions).build := by
  have hrun : ∃ pen, threeFigures.run {} = .ok () pen ∧ pen.build.figureCount = 2 := by
    refine ⟨_, rfl, ?_⟩
    decide +kernel
  obtain ⟨pen, hrun, hcount⟩ := hrun
  have h : threeFigures.construct = .ok pen.build := by rw [Instruction.construct_eq, hrun]
  exact ⟨pen.build, h, hcount, tidy_and_whole.2 threeFigures pen.build h⟩

end Pen

end VectorScene
