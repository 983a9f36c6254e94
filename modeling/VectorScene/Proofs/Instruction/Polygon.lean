import VectorScene.Proofs.Instruction.Replay
import VectorScene.Proofs.Primitive

/-!
# Polygons after a program

A polygon is a program that draws the commands of one closed figure (`Instruction.polygon_eq_replay`): it
moves the cursor to its first point, so it takes up no figure that was left open, and it closes the figure
that its lines start, so it closes no other one. With fewer than two points there are no lines, and then
nothing is drawn and nothing is closed (`Pen.build_markedAll_polygon`). So whatever was drawn before,
the polygon comes after it and is kept apart from it (`Instruction.compile_seq_polygon`).
-/

namespace VectorScene

/-- The commands by which a polygon is drawn. -/
def Command.polygon : List Point → List Command
  | [] => []
  | p :: ps => .moveTo p :: ps.map (fun q => .draw (.line q)) ++ [.close]

/-- The closed figure through points; fewer than two points make no figure. -/
def Path.polygon : List Point → Path
  | p :: q :: ps => ⟨.moveTo p :: (q :: ps).map (fun r => .draw (.line r)) ++ [.close]⟩
  | _ => .empty

theorem Command.map_polygon (points : List Point) (f : Point → Point) :
    (polygon points).map (map f) = polygon (points.map f) := by
  cases points with
  | nil => rfl
  | cons p ps =>
    simp only [polygon, List.cons_append, List.map_cons, List.map_append, List.map_map, List.map_nil]
    rfl

theorem Path.points_polygon (points : List Point) :
    Path.points ⟨Command.polygon points⟩ = points := by
  cases points with
  | nil => rfl
  | cons p ps =>
    have hline := points_polyline p ps
    rw [Path.points] at hline ⊢
    rw [Command.polygon, List.flatMap_append, hline]
    exact List.append_nil _

theorem Command.isFigure_polygon (p q : Point) (ps : List Point) : IsFigure (polygon (p :: q :: ps)) :=
  ⟨p, (q :: ps).map .line, true, List.cons_ne_nil _ _, by rw [List.map_map]; rfl⟩

namespace Pen

/-- The marks of a polygon add its figure to all that was drawn, and change nothing else of it. -/
theorem build_markedAll_polygon (pen : Pen) (points : List Point) :
    (pen.markedAll ((Command.polygon points).map Command.mark)).build =
      pen.build.extend (.polygon points) := by
  match points with
  | [] => exact congrArg Path.mk (List.append_nil _).symm
  | [_] =>
    -- There is only a point to move to; no figure is open then that could be closed.
    exact congrArg Path.mk (List.append_nil _).symm
  | p :: q :: ps => exact congrArg Path.mk (pen.build_markedAll_figure (Command.isFigure_polygon p q ps))

end Pen

namespace Instruction

theorem polygon_eq_replay (points : List Point) :
    polygon points = Path.replay ⟨Command.polygon points⟩ := by
  cases points with
  | nil => rfl
  | cons p ps =>
    simp only [polygon, Path.replay, Command.polygon, List.map_append, List.map_cons, List.map_map]
    rfl

/-- Without transforms in it, an instruction leaves the transform that it finds. -/
theorem advance_of_frames {i : Instruction} (h : i.frames = []) (pen : Pen) :
    i.advance pen = (i.marks pen.transform).map fun marks =>
      (pen.markedAll marks).inFrame pen.transform := by
  rw [advance_eq_marks, Context.frame_after, sets_of_frames h]
  rfl

theorem frames_polygon (points : List Point) : (polygon points).frames = [] := by
  rw [polygon_eq_replay, Path.frames_replay]

theorem marks_polygon_of_places {points : List Point} {m : Affine} (h : ∀ q ∈ points, m.Places q) :
    (polygon points).marks m = .ok ((Command.polygon (points.map m.apply)).map Command.mark) := by
  rw [polygon_eq_replay, ← Command.map_polygon]
  exact Path.marks_replay_of_places (by rwa [Path.points_polygon])

/-- A polygon fails at its first point that is not placed. -/
theorem marks_polygon_error {before after : List Point} {p : Point} {m : Affine}
    (hbefore : ∀ q ∈ before, m.Places q) (hp : ¬ m.Places p) :
    (polygon (before ++ p :: after)).marks m =
      .error (.nonFinite (if before.isEmpty then .moveTo else .lineTo)) := by
  have hplace : ∀ subject, m.place subject p = .error (.nonFinite subject) := fun subject => by
    rw [Affine.place, if_neg (by rwa [Bool.and_eq_true])]
  rw [polygon_eq_replay]
  cases before with
  | nil =>
    refine @Path.marks_replay_error _ _ [] _ (.moveTo p) _ rfl (List.forall_mem_nil _) ?_
    show PenAction.resolve m (.moveTo p) = _
    rw [PenAction.resolve, hplace]
    rfl
  | cons q before =>
    refine @Path.marks_replay_error _ _ (.moveTo q :: before.map fun r => .draw (.line r))
      (after.map (fun r => .draw (.line r)) ++ [.close]) (.draw (.line p)) _ ?_ ?_ ?_
    · simp [Command.polygon]
    · intro d hd r hr
      refine hbefore r ?_
      rw [← Path.points_polyline q before]
      exact List.mem_flatMap.mpr ⟨d, hd, hr⟩
    · show PenAction.resolve m (.draw (.line p)) = _
      rw [PenAction.resolve, Segment.mapM, Segment.subject, hplace]
      rfl

/-- A polygon is a figure of its own. After a program that leaves a transform which places all its points,
it adds its closed figure to what the program has drawn, or nothing if there are fewer than two points,
whatever figure was open and wherever the cursor was; and the transform stays. If a point is not placed,
the first such point is reported, as one to move to or to draw a line to. A rectangle is the polygon of
its four corners. -/
theorem compile_seq_polygon {i : Instruction} {c : Compilation} (hi : i.compile = .ok c) :
    i.construct = .ok c.path ∧
    (∀ points : List Point, (∀ p ∈ points, c.pen.transform.Places p) →
      ∃ c', (seq i (polygon points)).compile = .ok c' ∧
        (seq i (polygon points)).construct = .ok c'.path ∧ c'.pen.transform = c.pen.transform ∧
        c'.path = c.path.extend (.polygon (points.map c.pen.transform.apply))) ∧
    (∀ before p after, (∀ q ∈ before, c.pen.transform.Places q) → ¬ c.pen.transform.Places p →
      (seq i (polygon (before ++ p :: after))).construct =
        .error (.nonFinite (if before.isEmpty then .moveTo else .lineTo))) ∧
    ∀ corner size, rectangle corner size =
      polygon [corner, ⟨corner.x + size.x, corner.y⟩, ⟨corner.x + size.x, corner.y + size.y⟩,
        ⟨corner.x, corner.y + size.y⟩] := by
  have hseq : ∀ j : Instruction, (seq i j).advance {} = j.advance c.pen := fun j => by
    rw [advance_seq, advance_of_compile hi]
    rfl
  refine ⟨by rw [construct, hi]; rfl, fun points hplaces => ?_, fun before p after hbefore hp => ?_,
    fun _ _ => rfl⟩
  · have hadvance : (seq i (polygon points)).advance {} = .ok ((c.pen.markedAll
        ((Command.polygon (points.map c.pen.transform.apply)).map Command.mark)).inFrame
          c.pen.transform) := by
      rw [hseq, advance_of_frames (frames_polygon points), marks_polygon_of_places hplaces]
      rfl
    obtain ⟨c', hc', hpen⟩ := exists_compile_of_advance hadvance
    refine ⟨c', hc', by rw [construct, hc']; rfl, by rw [hpen]; rfl, ?_⟩
    rw [Compilation.path, hpen, Pen.build_inFrame, Pen.build_markedAll_polygon]
    rfl
  · rw [construct_eq_advance, hseq, advance_of_frames (frames_polygon _),
      marks_polygon_error hbefore hp]
    rfl

/-- A program that leaves a figure open, and a transform in place. -/
def openStroke : Instruction :=
  seq (act (.setTransform (.scale 2 2))) (seq (moveTo ⟨3, 3⟩) (lineTo ⟨4, 3⟩))

theorem compile_openStroke_polygon :
    ∃ c, openStroke.compile = .ok c ∧ c.pen.current = some 0 ∧ c.pen.cursor = ⟨8, 6⟩ ∧
      (∃ c', (seq openStroke (polygon [⟨0, 0⟩, ⟨1, 0⟩, ⟨1, 1⟩])).compile = .ok c' ∧
        c'.pen.transform = .scale 2 2 ∧
        c'.path.commands = [.moveTo ⟨6, 6⟩, .draw (.line ⟨8, 6⟩),
          .moveTo ⟨0, 0⟩, .draw (.line ⟨2, 0⟩), .draw (.line ⟨2, 2⟩), .close]) ∧
      (seq openStroke (polygon [⟨1, 1⟩])).construct = .ok ⟨[.moveTo ⟨6, 6⟩, .draw (.line ⟨8, 6⟩)]⟩ ∧
      (seq openStroke (polygon [⟨0, 0⟩, ⟨3e38, 0⟩, ⟨0, 1 / 0⟩])).construct =
        .error (.nonFinite .lineTo) := by
  obtain ⟨c, hc, hpen⟩ := @exists_compile_of_advance openStroke _ rfl
  have hpath : c.path.commands = [.moveTo ⟨6, 6⟩, .draw (.line ⟨8, 6⟩)] := by
    rw [Compilation.path, hpen]
    decide +kernel
  have hframe : c.pen.transform = .scale 2 2 := by rw [hpen]
  obtain ⟨-, hdraws, hfails, -⟩ := compile_seq_polygon hc
  rw [hframe] at hdraws hfails
  refine ⟨c, hc, by rw [hpen]; rfl, by rw [hpen]; decide +kernel, ?_, ?_, ?_⟩
  · obtain ⟨c', hc', -, hframe', hdrawn⟩ := hdraws [⟨0, 0⟩, ⟨1, 0⟩, ⟨1, 1⟩] (by decide +kernel)
    refine ⟨c', hc', hframe', ?_⟩
    rw [hdrawn, Path.extend, hpath]
    decide +kernel
  · obtain ⟨c', -, hconstruct, -, hdrawn⟩ := hdraws [⟨1, 1⟩] (by decide +kernel)
    rw [hconstruct, hdrawn, Path.extend, hpath]
    rfl
  · exact hfails [⟨0, 0⟩] ⟨3e38, 0⟩ [⟨0, 1 / 0⟩] (by decide +kernel) (by decide +kernel)

end Instruction

end VectorScene
