import Mathlib.Data.List.Forall2
import VectorScene.Path.Vertices
import VectorScene.Proofs.Path.Reading

/-!
# Vertices, figure by figure

A segment is replaced by lines that end where it ends (`Segment.flatten_eq`), so a subpath with its curves
replaced is a subpath again (`Subpath.flattened`), with the same start, the same end, and as closed as it
was. Its events are the flattened events (`Path.flatEvents_eq`) and can be followed as well, so where a
figure is started, no other is being read (`Path.Grouping.figure_foldl_read`), and the vertices of a path
are the corners of its flattened subpaths (`Path.vertices_eq`).
-/

namespace VectorScene

/-! ## Segments -/

namespace Segment

/-- The lines that replace a segment end where it ends. -/
theorem flatten_eq (tolerance : Float32) (source : Point) (s : Segment) :
    ∃ points, s.flatten tolerance source = points ++ [s.target] := by
  cases s with
  | line p => exact ⟨[], rfl⟩
  | quadratic c p => exact ⟨_, Array.toList_push⟩
  | cubic c₁ c₂ p => exact ⟨_, Array.toList_push⟩

/-- The points of the lines that replace segments that are drawn one after the other from a point. -/
def flattenAll (tolerance : Float32) : Point → List Segment → List Point
  | _, [] => []
  | source, s :: segments => s.flatten tolerance source ++ flattenAll tolerance s.target segments

/-- Lines are kept as they are. -/
theorem flattenAll_lines (tolerance : Float32) (source : Point) (targets : List Point) :
    flattenAll tolerance source (targets.map line) = targets := by
  induction targets generalizing source with
  | nil => rfl
  | cons p targets ih => exact congrArg (p :: ·) (ih p)

theorem endOf_lines (source : Point) (points : List Point) (p : Point) :
    endOf source ((points ++ [p]).map line) = p := by
  rw [List.map_append, endOf_append]
  rfl

theorem endOf_flatten (tolerance : Float32) (source : Point) (s : Segment) :
    endOf source ((s.flatten tolerance source).map line) = s.target := by
  obtain ⟨points, h⟩ := flatten_eq tolerance source s
  rw [h, endOf_lines]

theorem endOf_flattenAll (tolerance : Float32) (source : Point) (segments : List Segment) :
    endOf source ((flattenAll tolerance source segments).map line) = endOf source segments := by
  induction segments generalizing source with
  | nil => rfl
  | cons s segments ih => rw [flattenAll, List.map_append, endOf_append, endOf_flatten, ih]; rfl

end Segment

/-! ## Events -/

namespace Event

theorem draws_append (source : Point) (before after : List Segment) :
    draws source (before ++ after) =
      draws source before ++ draws (Segment.endOf source before) after := by
  induction before generalizing source with
  | nil => rfl
  | cons s before ih => exact congrArg (draw source s :: ·) (ih s.target)

theorem zipWith_lines (source : Point) (targets : List Point) :
    List.zipWith (fun p q => draw p (.line q)) (source :: targets) targets =
      draws source (targets.map .line) := by
  induction targets generalizing source with
  | nil => rfl
  | cons p targets ih => exact congrArg (draw source (.line p) :: ·) (ih p)

/-- Segments that are flattened one by one are flattened together. -/
theorem flatMap_flatten_draws (tolerance : Float32) (source : Point) (segments : List Segment) :
    (draws source segments).flatMap (flatten tolerance) =
      draws source ((Segment.flattenAll tolerance source segments).map .line) := by
  induction segments generalizing source with
  | nil => rfl
  | cons s segments ih =>
    have hs : (draw source s).flatten tolerance =
        draws source ((s.flatten tolerance source).map .line) := zipWith_lines _ _
    rw [draws, List.flatMap_cons, ih, hs, Segment.flattenAll, List.map_append, draws_append,
      Segment.endOf_flatten]

end Event

namespace Subpath

/-- The subpath with its curves replaced by lines. -/
def flattened (tolerance : Float32) (f : Subpath) : Subpath :=
  { f with segments := (Segment.flattenAll tolerance f.start f.segments).map .line }

theorem last_flattened (tolerance : Float32) (f : Subpath) : (f.flattened tolerance).last = f.last :=
  Segment.endOf_flattenAll tolerance f.start f.segments

theorem events_flattened (tolerance : Float32) (f : Subpath) :
    (f.flattened tolerance).events = f.events.flatMap (Event.flatten tolerance) := by
  rw [events, events, last_flattened, List.flatMap_cons, List.flatMap_append,
    Event.flatMap_flatten_draws]
  rfl

/-- The points at which the segments of a subpath begin and end, with the start again if it is closed. -/
def corners (f : Subpath) : List Point :=
  f.start :: f.segments.map Segment.target ++ if f.closed then [f.start] else []

theorem getLast?_targets (source : Point) (segments : List Segment) :
    (source :: segments.map Segment.target).getLast? = some (Segment.endOf source segments) := by
  induction segments generalizing source with
  | nil => rfl
  | cons s segments ih => exact ih s.target

theorem getLast?_corners (f : Subpath) :
    f.corners.getLast? = some (if f.closed then f.start else f.last) := by
  rw [corners]
  cases f.closed with
  | false =>
    rw [if_neg Bool.false_ne_true, if_neg Bool.false_ne_true, List.append_nil, getLast?_targets]
    rfl
  | true => exact List.getLast?_concat

/-- Whether a figure's vertices begin where it starts, end where it ends, which is at its start if it is
closed, and are just its points if it is made of lines. -/
structure TracedBy (f : Subpath) (vertices : List Point) : Prop where
  head : vertices.head? = some f.start
  last : vertices.getLast? = some (if f.closed then f.start else f.last)
  lines : ∀ targets, f.segments = targets.map .line →
    vertices = f.start :: targets ++ if f.closed then [f.start] else []

theorem tracedBy_corners_flattened (tolerance : Float32) (f : Subpath) :
    f.TracedBy (f.flattened tolerance).corners where
  head := rfl
  last := by
    rw [getLast?_corners, last_flattened]
    rfl
  lines := by
    intro targets htargets
    have htarget : ∀ points : List Point, (points.map Segment.line).map Segment.target = points := by
      intro points
      rw [List.map_map]
      exact List.map_id points
    rw [corners, flattened, htargets, Segment.flattenAll_lines, htarget]

end Subpath

/-! ## Paths -/

namespace Path

/-- The flattened events of a path are the events of its flattened subpaths. -/
theorem flatEvents_eq (p : Path) (tolerance : Float32) :
    p.flatEvents tolerance = (p.subpaths.map (Subpath.flattened tolerance)).flatMap Subpath.events := by
  rw [flatEvents, events_eq, List.flatMap_assoc, List.flatMap_map]
  simp only [Subpath.events_flattened]

theorem bracketed_flatEvents (p : Path) (tolerance : Float32) :
    Event.Bracketed none (p.flatEvents tolerance) := by
  rw [flatEvents_eq]
  exact Subpath.bracketed_flatMap_events _

namespace Grouping

theorem foldl_read_draws (g : Grouping) (source : Point) (segments : List Segment) :
    (Event.draws source segments).foldl read g =
      { g with figure := g.figure ++ segments.map Segment.target } := by
  induction segments generalizing g source with
  | nil => simp [Event.draws]
  | cons s segments ih =>
    rw [Event.draws, List.foldl_cons, ih]
    simp [read]

/-- Where no figure is being read, the events of a subpath add its corners as one figure. -/
theorem foldl_read_events {g : Grouping} (hg : g.figure = #[]) (f : Subpath) :
    f.events.foldl read g = { figures := g.figures.push f.corners, figure := #[] } := by
  have hleave : g.leave = g := by simp [leave, hg]
  rw [Subpath.events, List.foldl_cons, List.foldl_append, foldl_read_draws]
  cases h : f.closed <;> simp [read, hleave, Subpath.corners, h]

theorem foldl_read_flatMap_events {g : Grouping} (hg : g.figure = #[]) (fs : List Subpath) :
    (fs.flatMap Subpath.events).foldl read g =
      { figures := g.figures ++ fs.map Subpath.corners, figure := #[] } := by
  induction fs generalizing g with
  | nil =>
    obtain ⟨figures, figure⟩ := g
    cases hg
    simp
  | cons f fs ih =>
    rw [List.flatMap_cons, List.foldl_append, foldl_read_events hg, ih rfl]
    simp

/-- When events that can be followed have been read, no figure is being read any more. -/
theorem figure_foldl_read {figure : Option (Point × Point)} {es : List Event}
    (h : Event.Bracketed figure es) {g : Grouping} (hg : figure = none → g.figure = #[]) :
    (es.foldl read g).figure = #[] := by
  induction h generalizing g with
  | nil => exact hg rfl
  | start _ ih => exact ih nofun
  | draw _ ih => exact ih nofun
  | finish _ ih => exact ih fun _ => rfl

end Grouping

/-- The vertices of a path are the corners of its subpaths, with their curves replaced. -/
theorem vertices_eq (p : Path) (tolerance : Float32) :
    p.vertices tolerance = p.subpaths.map fun f => (f.flattened tolerance).corners := by
  rw [vertices, flatEvents_eq, Grouping.foldl_read_flatMap_events rfl]
  simp [Grouping.leave]

/-- The vertices of a path are one list for each `moveTo`, in order and starting there, and each list is
that of the figure that the `moveTo` starts. No figure is left over when the next one starts, or at the
end. -/
theorem vertices_subpaths (p : Path) (tolerance : Float32) :
    (p.vertices tolerance).length = p.figureCount ∧
    (p.vertices tolerance).map List.head? = (p.commands.filterMap Command.start?).map some ∧
    List.Forall₂ Subpath.TracedBy p.subpaths (p.vertices tolerance) ∧
    (∀ before q after, p.flatEvents tolerance = before ++ .start q :: after →
      (before.foldl Grouping.read {}).figure = #[]) ∧
    ((p.flatEvents tolerance).foldl Grouping.read {}).figure = #[] := by
  have hbracketed := p.bracketed_flatEvents tolerance
  refine ⟨?_, ?_, ?_, fun before q after h => ?_, ?_⟩
  · rw [vertices_eq, List.length_map, length_subpaths]
  · rw [vertices_eq, ← Command.map_start_subpaths, List.map_map, List.map_map]
    rfl
  · rw [vertices_eq, List.forall₂_map_right_iff, List.forall₂_same]
    exact fun f _ => f.tracedBy_corners_flattened tolerance
  · rw [h] at hbracketed
    exact Grouping.figure_foldl_read hbracketed.of_append_start fun _ => rfl
  · exact Grouping.figure_foldl_read hbracketed fun _ => rfl

/-- A closed corner between orphans, a figure without a segment, and a curve that is left open. -/
def gappy : Path :=
  ⟨[.draw (.line ⟨90, 90⟩), .moveTo ⟨0, 0⟩, .draw (.line ⟨4, 0⟩), .draw (.line ⟨4, 4⟩), .close, .close,
    .draw (.line ⟨80, 8⟩), .moveTo ⟨10, 10⟩, .moveTo ⟨12, 10⟩, .draw (.quadratic ⟨13, 12⟩ ⟨14, 10⟩)]⟩

theorem vertices_gappy :
    (gappy.vertices curveTolerance).length = 3 ∧
    (gappy.vertices curveTolerance).map List.head? = [some ⟨0, 0⟩, some ⟨10, 10⟩, some ⟨12, 10⟩] ∧
    (gappy.vertices curveTolerance)[0]? = some [⟨0, 0⟩, ⟨4, 0⟩, ⟨4, 4⟩, ⟨0, 0⟩] ∧
    ∃ before after, gappy.flatEvents curveTolerance = before ++ .start ⟨10, 10⟩ :: after ∧
      before.length = 4 ∧ (before.foldl Grouping.read {}).figure = #[] := by
  obtain ⟨hlength, hheads, htraced, hstart, -⟩ := vertices_subpaths gappy curveTolerance
  have hevents : gappy.flatEvents curveTolerance =
      (gappy.flatEvents curveTolerance).take 4 ++
        .start ⟨10, 10⟩ :: (gappy.flatEvents curveTolerance).drop 5 := by decide +kernel
  refine ⟨hlength, hheads, ?_, _, _, hevents, by decide +kernel, hstart _ _ _ hevents⟩
  cases hvertices : gappy.vertices curveTolerance with
  | nil => rw [hvertices] at hlength; cases hlength
  | cons vs others =>
    rw [hvertices] at htraced
    obtain ⟨hfirst, -⟩ := List.forall₂_cons.mp htraced
    exact congrArg some (hfirst.lines [⟨4, 0⟩, ⟨4, 4⟩] rfl)

end Path

end VectorScene
