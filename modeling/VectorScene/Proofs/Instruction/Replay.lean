import VectorScene.Proofs.Identity
import VectorScene.Proofs.Instruction.Outline
import VectorScene.Proofs.Path.Equality

/-!
# Replaying a path

A path that is made of figures can be drawn command by command. The pen does not see where a figure
ends, but each figure starts with a `moveTo`, which ends the one before it, so the pen adds the figures
of the path to its own (`Pen.build_markedAll_figures`), and the outline of such a program is the path.
-/

namespace VectorScene

namespace Command

/-- The action that draws a command. -/
def action : Command → PenAction
  | moveTo p => .moveTo p
  | draw s => .draw s
  | close => .closeFigure

/-- The mark of this action where all points are left as they are. -/
def mark (c : Command) : PenMark := c.action.mark

theorem points_mark (c : Command) : c.mark.points = c.points := by
  cases c <;> rfl

theorem mark_map (c : Command) (f : Point → Point) : (c.map f).mark = c.mark.map f := by
  cases c <;> rfl

theorem placedBy_action_iff {c : Command} {m : Affine} :
    c.action.PlacedBy m ↔ ∀ q ∈ c.points, m.Places q := by
  rw [← c.points_mark]
  refine ⟨fun h => h.points, fun h => ⟨fun arc harc => ?_, h⟩⟩
  cases c <;> cases harc

/-- A command whose points are all placed leaves its own mark, mapped. -/
theorem resolve_action {c : Command} {m : Affine} (h : ∀ q ∈ c.points, m.Places q) :
    c.action.resolve m = .ok (c.map m.apply).mark := by
  rw [c.mark_map]
  exact PenAction.resolve_eq_ok_iff.mpr ⟨placedBy_action_iff.mpr h, rfl⟩

theorem map_mark_draws (segments : List Segment) :
    (segments.map draw).map mark = segments.map .draw := by
  rw [List.map_map]
  rfl

end Command

namespace Path

/-- The instruction that draws a path command by command. -/
def replay (p : Path) : Instruction := .sequence (p.commands.map fun c => .act c.action)

end Path

/-! ## Figures -/

theorem Figure.commands_mk (start : Point) (s : Segment) (segments : List Segment) (closed : Bool) :
    Figure.commands ⟨start, #[s] ++ segments, closed⟩ =
      .moveTo start :: (s :: segments).map .draw ++ if closed then [.close] else [] := by
  have hdrawn := isDrawn_of_append_segments (f := ⟨start, #[s], closed⟩) rfl segments
  rw [commands_of_isDrawn hdrawn]
  simp

namespace Pen

variable {pen : Pen} {earlier : Array Figure} {f : Figure}

/-- Segments are added to the figure that is open. -/
theorem markedAll_draws (hcurrent : pen.current = some earlier.size)
    (hpush : pen.figures = earlier.push f) (segments : List Segment) :
    (pen.markedAll (segments.map .draw)).current = some earlier.size ∧
      (pen.markedAll (segments.map .draw)).figures =
        earlier.push { f with segments := f.segments ++ segments } := by
  induction segments generalizing pen f with
  | nil => exact ⟨hcurrent, by rw [Array.appendList_nil]; exact hpush⟩
  | cons s segments ih =>
    have hdrawn : (pen.marked (.draw s)).current = some earlier.size ∧
        (pen.marked (.draw s)).figures = earlier.push { f with segments := f.segments.push s } := by
      simp [marked, drawn, extended, hcurrent, hpush, modify_push_size]
    rw [List.map_cons, markedAll_cons, Array.appendList_cons]
    exact ih hdrawn.1 hdrawn.2

/-- The figure that is open may be closed. -/
theorem markedAll_close (hcurrent : pen.current = some earlier.size)
    (hpush : pen.figures = earlier.push f) (hopen : f.closed = false) (closed : Bool) :
    (pen.markedAll (List.map Command.mark (if closed then [.close] else []))).figures =
      earlier.push { f with closed } := by
  cases closed with
  | false =>
    obtain ⟨start, segments, isClosed⟩ := f
    cases hopen
    exact hpush
  | true =>
    show (pen.marked .closeFigure).figures = _
    simp only [marked, hcurrent, hpush, modify_push_size]

/-- What a figure draws comes after what has been built, and all of it is kept. -/
theorem build_markedAll_figure (pen : Pen) {cs : List Command} (h : Command.IsFigure cs) :
    (pen.markedAll (cs.map Command.mark)).build.commands = pen.build.commands ++ cs := by
  obtain ⟨start, segments, closed, hne, rfl⟩ := h
  obtain ⟨s, segments, rfl⟩ := List.exists_cons_of_ne_nil hne
  -- The first segment starts the figure, the others are added to it, and then it may be closed.
  have hstart : ((pen.marked (.moveTo start)).marked (.draw s)).figures =
      pen.figures.push { start, segments := #[s] } := rfl
  obtain ⟨hcurrent, hpush⟩ := markedAll_draws rfl hstart segments
  have hfigure := markedAll_close hcurrent hpush rfl closed
  rw [List.map_append, List.map_cons, Command.map_mark_draws, markedAll_append, ← Figure.commands_mk]
  exact commands_build_of_push hfigure

/-- Figures are added to what has been built one after the other. -/
theorem build_markedAll_figures (pen : Pen) {figures : List (List Command)}
    (h : ∀ cs ∈ figures, Command.IsFigure cs) :
    (pen.markedAll (figures.flatten.map Command.mark)).build.commands =
      pen.build.commands ++ figures.flatten := by
  induction figures generalizing pen with
  | nil => exact (List.append_nil _).symm
  | cons cs figures ih =>
    obtain ⟨hcs, h⟩ := List.forall_mem_cons.mp h
    rw [List.flatten_cons, List.map_append, markedAll_append, ih _ h, build_markedAll_figure pen hcs,
      List.append_assoc]

end Pen

/-! ## The instruction of a path -/

namespace Instruction

/-- What is read off an instruction part by part is read off a sequence one after the other. -/
theorem read_sequence {α : Type} (read : Instruction → List α) (hempty : read empty = [])
    (hseq : ∀ a b, read (seq a b) = read a ++ read b) (is : List Instruction) :
    read (sequence is) = is.flatMap read := by
  have hcombine : ∀ a b, read (combine a b) = read a ++ read b := by
    intro a b
    obtain ⟨rfl, h⟩ | ⟨rfl, h⟩ | h := combine_cases a b <;> rw [h]
    · rw [hempty, List.nil_append]
    · rw [hempty, List.append_nil]
    · exact hseq a b
  have hfold : ∀ acc, read (is.foldl combine acc) = read acc ++ is.flatMap read := by
    induction is with
    | nil => exact fun acc => (List.append_nil _).symm
    | cons i is ih =>
      intro acc
      rw [List.foldl_cons, ih, hcombine, List.flatMap_cons, List.append_assoc]
  rw [sequence, hfold, hempty, List.nil_append]

theorem whole_of_construct {i : Instruction} {p : Path} (h : i.construct = .ok p) : p.Whole := by
  rw [construct_eq_marks] at h
  obtain ⟨marks, hmarks, rfl⟩ := map_eq_ok_iff.mp h
  exact (Pen.Tidy.new.markedAll (finite_of_marks hmarks)).whole_build

end Instruction

namespace Path

variable {p : Path}

theorem actions_replay (p : Path) : p.replay.actions = p.commands.map Command.action := by
  rw [replay, Instruction.read_sequence Instruction.actions rfl fun _ _ => rfl, List.flatMap_map]
  exact List.map_eq_flatMap.symm

theorem frames_replay (p : Path) : p.replay.frames = [] := by
  rw [replay, Instruction.read_sequence Instruction.frames rfl fun _ _ => rfl, List.flatMap_map,
    List.flatMap_eq_nil_iff]
  intro c _
  cases c <;> rfl

/-- Points are placed in a replay where they are placed in the path. -/
theorem placedBy_replay_iff {m : Affine} :
    (∀ a ∈ p.replay.actions, a.PlacedBy m) ↔ ∀ q ∈ p.points, m.Places q := by
  simp only [actions_replay, List.forall_mem_map, Command.placedBy_action_iff, points,
    List.forall_mem_flatMap]

theorem marks_replay (p : Path) (m : Affine) :
    p.replay.marks m = p.commands.mapM fun c => c.action.resolve m := by
  rw [Instruction.marks_of_frames p.frames_replay, actions_replay, List.mapM_map]
  rfl

theorem marks_replay_of_places {m : Affine} (h : ∀ q ∈ p.points, m.Places q) :
    p.replay.marks m = .ok ((p.commands.map (Command.map m.apply)).map Command.mark) := by
  rw [marks_replay, mapM_eq_ok_iff, List.map_map, List.map_map]
  exact List.map_congr_left fun c hc =>
    Command.resolve_action fun q hq => h q (List.mem_flatMap.mpr ⟨c, hc, hq⟩)

/-- A replay fails at the first command that has a point that is not placed. -/
theorem marks_replay_error {m : Affine} {before after : List Command} {c : Command} {e : GeometryError}
    (hp : p.commands = before ++ c :: after) (hbefore : ∀ d ∈ before, ∀ q ∈ d.points, m.Places q)
    (hc : c.action.resolve m = .error e) : p.replay.marks m = .error e := by
  rw [marks_replay]
  exact mapM_eq_error_iff.mpr
    ⟨before, c, after, hp, fun d hd => ⟨_, Command.resolve_action (hbefore d hd)⟩, hc⟩

/-- A figure starts with a `moveTo`, so a replay of figures starts nowhere else. -/
theorem IsFigures.startsPlaced (h : p.IsFigures) : p.replay.StartsPlaced := by
  obtain ⟨figures, hp, hfigures⟩ := h
  intro s hs
  rw [actions_replay, hp] at hs
  cases figures with
  | nil => cases hs
  | cons cs figures =>
    obtain ⟨start, segments, closed, -, rfl⟩ := hfigures cs List.mem_cons_self
    cases hs

/-- The outline of a replay is the path. -/
theorem IsFigures.outline_replay (h : p.IsFigures) : p.replay.outline = p := by
  obtain ⟨figures, hp, hfigures⟩ := h
  have hbuild := Pen.build_markedAll_figures {} hfigures
  have hmarks : p.replay.actions.map PenAction.mark = figures.flatten.map Command.mark := by
    rw [actions_replay, hp, List.map_map]
    rfl
  rw [Instruction.outline, hmarks]
  exact congrArg Path.mk (hbuild.trans hp.symm)

/-- A finite path equals its image under the identity. -/
theorem Finite.beq_map_identity (h : p.Finite) : p == p.map Affine.identity.apply := by
  rw [beq_iff, map, List.forall₂_map_right_iff, List.forall₂_same]
  intro c hc
  exact Command.beq_map fun q hq => Affine.beq_apply_identity (h q (List.mem_flatMap.mpr ⟨c, hc, hq⟩))

theorem Finite.places_identity (h : p.Finite) : ∀ q ∈ p.points, Affine.identity.Places q :=
  fun q hq => ⟨h q hq, Affine.isFinite_apply_identity (h q hq)⟩

theorem construct_replay_of_places (h : p.IsFigures)
    (hplaces : ∀ q ∈ p.points, Affine.identity.Places q) :
    p.replay.construct = .ok (p.map Affine.identity.apply) := by
  rw [Instruction.construct_eq_marks,
    Instruction.build_marks_eq_ok_iff p.frames_replay h.startsPlaced, h.outline_replay]
  exact ⟨placedBy_replay_iff.mpr hplaces, rfl⟩

/-- Replaying a path of figures rebuilds it, with each point at its image under the identity. So the
paths that are constructed, by whatever instructions, are all finite paths of figures, but for the
signs of zeros, which `==` does not see. -/
theorem construct_replay (p : Path) :
    (p.IsFigures → (∀ q ∈ p.points, q.isFinite ∧ (Affine.identity.apply q).isFinite) →
      p.replay.construct = .ok ⟨p.commands.map (Command.map Affine.identity.apply)⟩) ∧
    ((∃ i q, Instruction.construct i = .ok q ∧ p == q) ↔ p.IsFigures ∧ p.Finite) := by
  refine ⟨construct_replay_of_places, ?_, ?_⟩
  · rintro ⟨i, q, hq, hpq⟩
    have hwhole := Instruction.whole_of_construct hq
    exact ⟨hwhole.isFigures.of_beq hpq, Finite.of_beq hpq hwhole.finite⟩
  · rintro ⟨hfigures, hfinite⟩
    exact ⟨p.replay, _, construct_replay_of_places hfigures hfinite.places_identity,
      hfinite.beq_map_identity⟩

/-- An open line, and a curve that is closed. -/
def lineAndCurve : Path :=
  ⟨[.moveTo ⟨0, 0⟩, .draw (.line ⟨1, 2⟩), .moveTo ⟨3, 0⟩, .draw (.quadratic ⟨4, 4⟩ ⟨5, 0⟩), .close]⟩

theorem construct_replay_lineAndCurve :
    lineAndCurve.IsFigures ∧
    (∀ q ∈ lineAndCurve.points, q.isFinite ∧ (Affine.identity.apply q).isFinite) ∧
    lineAndCurve.replay.construct =
      .ok ⟨lineAndCurve.commands.map (Command.map Affine.identity.apply)⟩ ∧
    ∃ i q, Instruction.construct i = .ok q ∧ lineAndCurve == q := by
  have hfigures : lineAndCurve.IsFigures := by
    refine ⟨[[.moveTo ⟨0, 0⟩, .draw (.line ⟨1, 2⟩)],
      [.moveTo ⟨3, 0⟩, .draw (.quadratic ⟨4, 4⟩ ⟨5, 0⟩), .close]], rfl, ?_⟩
    refine List.forall_mem_cons.mpr ⟨⟨⟨0, 0⟩, [.line ⟨1, 2⟩], false, nofun, rfl⟩, ?_⟩
    exact List.forall_mem_singleton.mpr ⟨⟨3, 0⟩, [.quadratic ⟨4, 4⟩ ⟨5, 0⟩], true, nofun, rfl⟩
  have hfinite : ∀ q ∈ lineAndCurve.points, q.isFinite ∧ (Affine.identity.apply q).isFinite := by
    decide +kernel
  obtain ⟨hreplay, hconstructed⟩ := construct_replay lineAndCurve
  exact ⟨hfigures, hfinite, hreplay hfigures hfinite,
    hconstructed.mpr ⟨hfigures, fun q hq => (hfinite q hq).1⟩⟩

end Path

end VectorScene
