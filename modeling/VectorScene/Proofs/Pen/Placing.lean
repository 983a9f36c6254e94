import VectorScene.Proofs.Pen.Step

/-!
# Where points are placed

A transform places a point if the point and its image are finite, and then at the image. So what an
action leaves under a transform is its own mark, `PenAction.mark`, with each point mapped, and whether
it leaves one can be read off these points (`PenAction.resolve_eq_ok_iff`). In particular, all points of
a mark are finite (`PenAction.finite_of_resolve`).
-/

namespace VectorScene

/-- Whether a transform places a point. -/
def Affine.Places (m : Affine) (p : Point) : Prop := p.isFinite ∧ (m.apply p).isFinite

instance (m : Affine) (p : Point) : Decidable (m.Places p) := inferInstanceAs (Decidable (_ ∧ _))

theorem Affine.place_eq_ok_iff {m : Affine} {subject : Subject} {p q : Point} :
    m.place subject p = .ok q ↔ m.Places p ∧ q = m.apply p := by
  rw [place, Places, ← Bool.and_eq_true_iff]
  split
  · rename_i h
    exact ⟨fun hq => ⟨h, (Except.ok.inj hq).symm⟩, fun hq => congrArg Except.ok hq.2.symm⟩
  · rename_i h
    exact ⟨nofun, fun hq => absurd hq.1 h⟩

/-- A segment is placed if all its points are. -/
theorem Segment.mapM_place_eq_ok_iff {m : Affine} {subject : Subject} {s t : Segment} :
    s.mapM (m.place subject) = .ok t ↔ (∀ p ∈ s.points, m.Places p) ∧ t = s.map m.apply := by
  have hpure : ∀ s t : Segment, (pure s : Except GeometryError Segment) = .ok t ↔ t = s :=
    fun s t => ⟨fun h => (Except.ok.inj h).symm, fun h => congrArg Except.ok h.symm⟩
  cases s <;>
    simp only [mapM, bind_eq_ok_iff, Affine.place_eq_ok_iff, hpure, points, map, List.forall_mem_cons,
      List.not_mem_nil, false_imp_iff, implies_true, and_true, and_assoc, exists_and_left, exists_eq_left]

/-! ## Marks of actions -/

namespace PenMark

def points : PenMark → List Point
  | moveTo p => [p]
  | draw s => s.points
  | arc first curves last => first :: last :: curves.flatMap Segment.points
  | _ => []

def map (f : Point → Point) : PenMark → PenMark
  | moveTo p => moveTo (f p)
  | draw s => draw (s.map f)
  | arc first curves last => arc (f first) (curves.map (Segment.map f)) (f last)
  | startFigure => startFigure
  | closeFigure => closeFigure
  | closeAllFigures => closeAllFigures
  | setTransform m => setTransform m

end PenMark

namespace PenAction

/-- The mark of an action that leaves all its points where they are. -/
def mark : PenAction → PenMark
  | moveTo p => .moveTo p
  | draw s => .draw s
  | arcTo a => .arc a.first a.curves a.last
  | startFigure => .startFigure
  | closeFigure => .closeFigure
  | closeAllFigures => .closeAllFigures
  | setTransform m => .setTransform m

/-- Whether a transform places all points of an action, and the arc that it draws, if any, is one. -/
structure PlacedBy (a : PenAction) (m : Affine) : Prop where
  check : ∀ arc, a = arcTo arc → arc.check = .ok ()
  points : ∀ p ∈ a.mark.points, m.Places p

/-- There is nothing to place for an action without points. -/
theorem PlacedBy.of_points_eq_nil {a : PenAction} {m : Affine} (harc : ∀ arc, a ≠ arcTo arc)
    (h : a.mark.points = []) : a.PlacedBy m where
  check arc ha := absurd ha (harc arc)
  points p hp := by
    rw [h] at hp
    exact absurd hp List.not_mem_nil

theorem resolve_arcTo_eq_ok_iff {a : Arc} {m : Affine} {mark : PenMark} :
    (arcTo a).resolve m = .ok mark ↔
      a.check = .ok () ∧ (∀ p ∈ (arcTo a).mark.points, m.Places p) ∧
        mark = (arcTo a).mark.map m.apply := by
  have hcurves : ∀ curves, a.curves.mapM (Segment.mapM (m.place .arcTo)) = .ok curves ↔
      (∀ s ∈ a.curves, ∀ p ∈ s.points, m.Places p) ∧ curves = a.curves.map (Segment.map m.apply) :=
    fun curves => mapM_eq_ok_iff_of fun s t => Segment.mapM_place_eq_ok_iff
  have hpoints : (∀ p ∈ (arcTo a).mark.points, m.Places p) ↔
      m.Places a.first ∧ m.Places a.last ∧ ∀ s ∈ a.curves, ∀ p ∈ s.points, m.Places p := by
    rw [PenAction.mark, PenMark.points, List.forall_mem_cons, List.forall_mem_cons,
      List.forall_mem_flatMap]
  rw [hpoints, resolve, bind_eq_ok_iff]
  constructor
  · rintro ⟨_, hcheck, h⟩
    obtain ⟨first, hfirst, h⟩ := bind_eq_ok_iff.mp h
    obtain ⟨last, hlast, h⟩ := bind_eq_ok_iff.mp h
    obtain ⟨curves, hs, h⟩ := bind_eq_ok_iff.mp h
    cases h
    obtain ⟨pfirst, rfl⟩ := Affine.place_eq_ok_iff.mp hfirst
    obtain ⟨plast, rfl⟩ := Affine.place_eq_ok_iff.mp hlast
    obtain ⟨ps, rfl⟩ := (hcurves curves).mp hs
    exact ⟨hcheck, ⟨pfirst, plast, ps⟩, rfl⟩
  · rintro ⟨hcheck, ⟨hfirst, hlast, hs⟩, rfl⟩
    refine ⟨(), hcheck, bind_eq_ok_iff.mpr ⟨_, Affine.place_eq_ok_iff.mpr ⟨hfirst, rfl⟩, ?_⟩⟩
    refine bind_eq_ok_iff.mpr ⟨_, Affine.place_eq_ok_iff.mpr ⟨hlast, rfl⟩, ?_⟩
    exact bind_eq_ok_iff.mpr ⟨_, (hcurves _).mpr ⟨hs, rfl⟩, rfl⟩

/-- An action succeeds if the transform places its points, and leaves its mark with all of them mapped. -/
theorem resolve_eq_ok_iff {a : PenAction} {m : Affine} {mark : PenMark} :
    a.resolve m = .ok mark ↔ a.PlacedBy m ∧ mark = a.mark.map m.apply := by
  have hpointless {b : PenAction} (hb : b.PlacedBy m) (h : b.resolve m = .ok (b.mark.map m.apply)) :
      b.resolve m = .ok mark ↔ b.PlacedBy m ∧ mark = b.mark.map m.apply := by
    rw [h]
    exact ⟨fun hmark => ⟨hb, (Except.ok.inj hmark).symm⟩, fun hmark => congrArg Except.ok hmark.2.symm⟩
  cases a with
  | moveTo p =>
    rw [resolve, bind_eq_ok_iff]
    constructor
    · rintro ⟨_, hp, h⟩
      cases h
      obtain ⟨hplaces, rfl⟩ := Affine.place_eq_ok_iff.mp hp
      exact ⟨⟨by simp, List.forall_mem_singleton.mpr hplaces⟩, rfl⟩
    · rintro ⟨hp, rfl⟩
      have hp : m.Places p := hp.points p List.mem_cons_self
      exact ⟨_, Affine.place_eq_ok_iff.mpr ⟨hp, rfl⟩, rfl⟩
  | draw s =>
    rw [resolve, bind_eq_ok_iff]
    constructor
    · rintro ⟨_, hs, h⟩
      cases h
      obtain ⟨hplaces, rfl⟩ := Segment.mapM_place_eq_ok_iff.mp hs
      exact ⟨⟨by simp, hplaces⟩, rfl⟩
    · rintro ⟨hs, rfl⟩
      exact ⟨_, Segment.mapM_place_eq_ok_iff.mpr ⟨hs.points, rfl⟩, rfl⟩
  | arcTo a =>
    rw [resolve_arcTo_eq_ok_iff]
    constructor
    · rintro ⟨hcheck, hpoints, hmark⟩
      exact ⟨⟨fun _ h => by cases h; exact hcheck, hpoints⟩, hmark⟩
    · rintro ⟨hplaced, hmark⟩
      exact ⟨hplaced.check a rfl, hplaced.points, hmark⟩
  | startFigure => exact hpointless (.of_points_eq_nil (by simp) rfl) rfl
  | closeFigure => exact hpointless (.of_points_eq_nil (by simp) rfl) rfl
  | closeAllFigures => exact hpointless (.of_points_eq_nil (by simp) rfl) rfl
  | setTransform n => exact hpointless (.of_points_eq_nil (by simp) rfl) rfl

end PenAction

/-! ## Finite points -/

theorem Segment.finite_map {f : Point → Point} {s : Segment} (h : ∀ p ∈ s.points, (f p).isFinite) :
    (s.map f).Finite := by
  cases s <;> simpa [Finite, map, points] using h

theorem PenMark.finite_map {f : Point → Point} {mark : PenMark}
    (h : ∀ p ∈ mark.points, (f p).isFinite) : (mark.map f).Finite := by
  cases mark with
  | moveTo p => exact h p List.mem_cons_self
  | draw s => exact Segment.finite_map h
  | arc first curves last =>
    obtain ⟨hfirst, h⟩ := List.forall_mem_cons.mp h
    obtain ⟨hlast, h⟩ := List.forall_mem_cons.mp h
    exact ⟨hfirst, List.forall_mem_map.mpr fun s hs =>
      Segment.finite_map (List.forall_mem_flatMap.mp h s hs), hlast⟩
  | _ => trivial

/-- An action that does not fail has only finite points, whatever the transform. -/
theorem PenAction.finite_of_resolve {m : Affine} {a : PenAction} {mark : PenMark}
    (h : a.resolve m = .ok mark) : mark.Finite := by
  obtain ⟨hplaced, rfl⟩ := resolve_eq_ok_iff.mp h
  exact PenMark.finite_map fun p hp => (hplaced.points p hp).2

end VectorScene
