import VectorScene.Primitive
import VectorScene.Proofs.Overflow
import VectorScene.Proofs.Pen.Placing

/-!
# The points of primitives

`Primitive.toPath` checks the points that it writes, except for those of an arc: there it checks the
numbers that describe the arc, and the points are computed from them afterwards. So the path of a
primitive is finite unless the primitive is an arc whose points overflow (`Primitive.finite_iff`).
A pen places each of these points before it draws, and refuses such an arc (`Pen.arcTo_of_overflow`).
-/

namespace VectorScene

/-- All points by which the arc is drawn are finite. -/
structure Arc.Finite (a : Arc) : Prop where
  first : a.first.isFinite
  curves : ∀ s ∈ a.curves, s.Finite

/-- A figure is finite if its start and its segments are. -/
theorem Path.finite_figure_iff (p : Point) (segments : List Segment) :
    Path.Finite ⟨.moveTo p :: segments.map .draw⟩ ↔ p.isFinite ∧ ∀ s ∈ segments, s.Finite := by
  have hpoints : Path.points ⟨.moveTo p :: segments.map .draw⟩ =
      p :: segments.flatMap Segment.points := by
    simp only [points, List.flatMap_cons, List.flatMap_map, Command.points, List.singleton_append]
  rw [Path.Finite, hpoints, List.forall_mem_cons, List.forall_mem_flatMap]
  rfl

theorem Path.points_polyline (p : Point) (rest : List Point) :
    Path.points ⟨.moveTo p :: rest.map fun q => .draw (.line q)⟩ = p :: rest := by
  simp only [points, List.flatMap_cons, List.flatMap_map, Command.points, Segment.points,
    List.flatMap_singleton', List.singleton_append]

namespace Primitive

/-- The path of an arc consists of points that are computed after the check. -/
theorem toPath_arc {a : Arc} (h : a.check = .ok ()) :
    (arc a).toPath = .ok ⟨.moveTo a.first :: a.curves.map .draw⟩ := by
  rw [toPath, h]
  rfl

/-- The path of a primitive is finite, unless the primitive is an arc whose points overflow. -/
theorem finite_iff {primitive : Primitive} {p : Path} (h : primitive.toPath = .ok p) :
    p.Finite ↔ ∀ a, primitive = arc a → a.Finite := by
  cases primitive with
  | arc a =>
    obtain ⟨_, hcheck, h⟩ := bind_eq_ok_iff.mp h
    cases h
    rw [Path.finite_figure_iff]
    constructor
    · rintro ⟨hfirst, hcurves⟩ _ ⟨⟩
      exact ⟨hfirst, hcurves⟩
    · intro hfinite
      obtain ⟨hfirst, hcurves⟩ := hfinite a rfl
      exact ⟨hfirst, hcurves⟩
  | line q r =>
    obtain ⟨_, hcheck, h⟩ := bind_eq_ok_iff.mp h
    cases h
    exact iff_of_true (Point.checkAll_eq_ok_iff.mp hcheck) nofun
  | cubicBezier q c₁ c₂ r =>
    obtain ⟨_, hcheck, h⟩ := bind_eq_ok_iff.mp h
    cases h
    exact iff_of_true (Point.checkAll_eq_ok_iff.mp hcheck) nofun
  | polyline points =>
    cases points with
    | nil => cases h
    | cons q rest =>
      cases rest with
      | nil => cases h
      | cons r rest =>
        obtain ⟨_, hcheck, h⟩ := bind_eq_ok_iff.mp h
        cases h
        have hpoints : Path.Finite ⟨.moveTo q :: (r :: rest).map fun t => .draw (.line t)⟩ := by
          rw [Path.Finite, Path.points_polyline]
          exact Point.checkAll_eq_ok_iff.mp hcheck
        exact iff_of_true hpoints nofun
  | path q =>
    obtain ⟨_, hcheck, h⟩ := bind_eq_ok_iff.mp h
    cases h
    exact iff_of_true (Point.checkAll_eq_ok_iff.mp hcheck) nofun

end Primitive

/-! ## Arcs on a pen -/

variable {m : Affine} {subject : Subject}

theorem Affine.place_error {p : Point} {e : GeometryError} (h : m.place subject p = .error e) :
    e = .nonFinite subject := by
  unfold place at h
  split at h <;> cases h
  rfl

namespace Segment

/-- Mapping a segment is mapping its points, in order. -/
theorem mapM_points {ε : Type} (f : Point → Except ε Point) (s : Segment) :
    s.points.mapM f = (s.mapM f).map points := by
  cases s with
  | line p =>
    rw [points, mapM, List.mapM_cons]
    cases f p <;> rfl
  | quadratic c p =>
    rw [points, mapM, List.mapM_cons, List.mapM_cons]
    cases f c with
    | error e => rfl
    | ok c' => cases f p <;> rfl
  | cubic c₁ c₂ p =>
    rw [points, mapM, List.mapM_cons, List.mapM_cons, List.mapM_cons]
    cases f c₁ with
    | error e => rfl
    | ok c₁' =>
      cases f c₂ with
      | error e => rfl
      | ok c₂' => cases f p <;> rfl

theorem mapM_place_error {s : Segment} {e : GeometryError}
    (h : s.mapM (m.place subject) = .error e) : e = .nonFinite subject := by
  have hpoints : s.points.mapM (m.place subject) = .error e := by
    rw [mapM_points, h]
    rfl
  obtain ⟨before, p, after, -, -, hp⟩ := mapM_eq_error_iff.mp hpoints
  exact Affine.place_error hp

end Segment

variable {a : Arc}

/-- An arc that passes the check of its numbers can fail only where its points are placed. -/
theorem PenAction.resolve_arcTo_error (hcheck : a.check = .ok ()) {e : GeometryError}
    (h : (arcTo a).resolve m = .error e) : e = .nonFinite .arcTo := by
  rw [resolve, hcheck] at h
  cases hfirst : m.place .arcTo a.first with
  | error e' =>
    rw [hfirst] at h
    cases h
    exact Affine.place_error hfirst
  | ok first =>
    cases hlast : m.place .arcTo a.last with
    | error e' =>
      rw [hfirst, hlast] at h
      cases h
      exact Affine.place_error hlast
    | ok last =>
      cases hcurves : a.curves.mapM (Segment.mapM (m.place .arcTo)) with
      | error e' =>
        rw [hfirst, hlast, hcurves] at h
        cases h
        obtain ⟨before, s, after, -, -, hs⟩ := mapM_eq_error_iff.mp hcurves
        exact Segment.mapM_place_error hs
      | ok curves =>
        rw [hfirst, hlast, hcurves] at h
        cases h

/-- An arc that passes the check of its numbers is placed if all its points are. -/
theorem PenAction.resolve_arcTo_eq_error_iff (hcheck : a.check = .ok ()) :
    (arcTo a).resolve m = .error (.nonFinite .arcTo) ↔
      ¬ ∀ p ∈ (arcTo a).mark.points, m.Places p := by
  cases h : (arcTo a).resolve m with
  | error e =>
    refine iff_of_true (congrArg Except.error (resolve_arcTo_error hcheck h)) fun hplaces => ?_
    rw [resolve_arcTo_eq_ok_iff.mpr ⟨hcheck, hplaces, rfl⟩] at h
    cases h
  | ok mark => exact iff_of_false nofun fun hplaces => hplaces (resolve_arcTo_eq_ok_iff.mp h).2.1

/-- An arc whose points overflow is not placed, under any transform. -/
theorem PenAction.resolve_arcTo_of_overflow (hcheck : a.check = .ok ()) (h : ¬ a.Finite) (m : Affine) :
    (arcTo a).resolve m = .error (.nonFinite .arcTo) := by
  refine (resolve_arcTo_eq_error_iff hcheck).mpr fun hplaces => h ?_
  obtain ⟨hfirst, hplaces⟩ := List.forall_mem_cons.mp hplaces
  obtain ⟨-, hcurves⟩ := List.forall_mem_cons.mp hplaces
  exact ⟨hfirst.1, fun s hs p hp => (List.forall_mem_flatMap.mp hcurves s hs p hp).1⟩

theorem Pen.arcTo_of_overflow (hcheck : a.check = .ok ()) (h : ¬ a.Finite) (pen : Pen) :
    arcTo a pen = .error (.nonFinite .arcTo) pen := by
  have hperform := PenAction.perform_eq (.arcTo a) pen
  rwa [PenAction.resolve_arcTo_of_overflow hcheck h] at hperform

end VectorScene
