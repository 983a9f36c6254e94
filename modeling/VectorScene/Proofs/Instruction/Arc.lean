import VectorScene.Proofs.Identity
import VectorScene.Proofs.Instruction.Advance
import VectorScene.Proofs.Numeric
import VectorScene.Proofs.Path.Figures
import VectorScene.Proofs.Primitive

/-!
# Arcs as primitives and as instructions

An arc can be a primitive, or it can be drawn by a pen. Both check its numbers in the same order, with the
same error (`Arc.check_eq`), and both use the same curves. They part ways after that: a primitive is its
points as they are computed, a pen places each of them first, with the identity if it is a new one. So a
pen may refuse an arc that passes the check, and draws every other arc as the primitive has it
(`Instruction.construct_arcTo`).
-/

namespace VectorScene

namespace Arc

variable {a : Arc}

/-- All numbers by which the arc is described are finite. -/
def IsDescribed (a : Arc) : Prop := ∀ x ∈ Numeric.numbers a, x.isFinite

instance : Decidable a.IsDescribed := inferInstanceAs (Decidable (∀ x ∈ Numeric.numbers a, x.isFinite))

/-- A radius of the arc is below zero. -/
def HasNegativeRadius (a : Arc) : Prop := a.radii.x < 0 ∨ a.radii.y < 0

instance : Decidable a.HasNegativeRadius := inferInstanceAs (Decidable (_ ∨ _))

/-- A number that is not finite is reported before a negative radius is. -/
theorem check_eq (a : Arc) :
    a.check =
      if a.IsDescribed then if a.HasNegativeRadius then .error (.negativeRadius .arc) else .ok ()
      else .error (.nonFinite .arc) := by
  have hnumbers : (a.radii.isFinite && a.xRotation.isFinite && a.startAngle.isFinite &&
      a.sweepAngle.isFinite && a.center.isFinite) = true ↔ a.IsDescribed := by
    simp only [IsDescribed, Numeric.numbers, List.forall_mem_cons, Point.isFinite, Bool.and_eq_true]
    grind
  have hradius : (a.radii.x < 0 || a.radii.y < 0) = true ↔ a.HasNegativeRadius := by
    simp only [HasNegativeRadius, Bool.or_eq_true, decide_eq_true_eq]
  simp only [check, hnumbers, hradius]

theorem exists_quadratic_of_mem_curves {s : Segment} (h : s ∈ a.curves) : ∃ c q, s = .quadratic c q := by
  obtain ⟨i, -, rfl⟩ := List.mem_map.mp h
  exact ⟨_, _, rfl⟩

end Arc

/-- A new pen draws an arc as a figure of its own, unless there are no curves to draw. -/
theorem Pen.build_marked_arc (first : Point) (curves : List Segment) (last : Point) :
    (Pen.marked {} (.arc first curves last)).build =
      ⟨if curves = [] then [] else .moveTo first :: curves.map .draw⟩ := by
  have hbuild : (Pen.marked {} (.arc first curves last)).build =
      ⟨Figure.commands { start := first, segments := curves.toArray }⟩ :=
    congrArg Path.mk (List.append_nil _)
  rw [hbuild]
  cases curves with
  | nil => rfl
  | cons s curves => simp [Figure.commands]

namespace Instruction

variable {a : Arc}

theorem construct_act (b : PenAction) :
    (act b).construct = (b.resolve Affine.identity).map fun mark => (Pen.marked {} mark).build := by
  rw [construct_eq_advance, advance_act]
  cases b.resolve (Pen.transform {}) <;> rfl

theorem construct_arcTo_of_check_error {e : GeometryError} (h : a.check = .error e) :
    (act (.arcTo a)).construct = .error e := by
  rw [construct_act, PenAction.resolve, h]
  rfl

/-- An arc whose points are all placed is drawn at its points mapped. -/
theorem construct_arcTo_of_places (hcheck : a.check = .ok ())
    (hplaces : ∀ p ∈ (PenAction.arcTo a).mark.points, Affine.identity.Places p) :
    (act (.arcTo a)).construct =
      .ok ⟨if a.curves = [] then [] else
        (.moveTo a.first :: a.curves.map .draw).map (Command.map Affine.identity.apply)⟩ := by
  have hresolve := PenAction.resolve_arcTo_eq_ok_iff.mpr ⟨hcheck, hplaces, rfl⟩
  rw [construct_act, hresolve]
  show Except.ok (Pen.marked {} (.arc _ (a.curves.map _) _)).build = _
  rw [Pen.build_marked_arc]
  simp only [List.map_eq_nil_iff, List.map_cons, List.map_map]
  rfl

/-- A primitive and a new pen agree on an arc. They report the same error where its numbers are rejected:
that one is not finite, whatever the radii are, or else that a radius is negative. Any other arc has a path,
a `moveTo` and its curves. If all points that the pen samples are finite, and their images under the
identity, the pen constructs this path with each point at its image, unless there is no curve, and then it
constructs the empty path; and if one of them is not, the pen refuses the arc. -/
theorem construct_arcTo (a : Arc) :
    let outline := (Primitive.arc a).toPath
    let drawn := (act (.arcTo a)).construct
    (¬ a.IsDescribed → outline = .error (.nonFinite .arc) ∧ drawn = .error (.nonFinite .arc)) ∧
    (a.IsDescribed → a.HasNegativeRadius →
      outline = .error (.negativeRadius .arc) ∧ drawn = .error (.negativeRadius .arc)) ∧
    (a.IsDescribed → ¬ a.HasNegativeRadius → ∃ p, outline = .ok p ∧
      p.commands = .moveTo a.first :: a.curves.map .draw ∧
      (∀ s ∈ a.curves, ∃ c q, s = .quadratic c q) ∧
      ((∀ q ∈ a.first :: a.last :: a.curves.flatMap Segment.points,
          q.isFinite ∧ (Affine.identity.apply q).isFinite) →
        (a.curves ≠ [] → drawn = .ok ⟨p.commands.map (Command.map Affine.identity.apply)⟩) ∧
        (a.curves = [] → drawn = .ok .empty)) ∧
      (¬ (∀ q ∈ a.first :: a.last :: a.curves.flatMap Segment.points,
          q.isFinite ∧ (Affine.identity.apply q).isFinite) →
        drawn = .error (.nonFinite .arcTo))) := by
  intro outline drawn
  have hrejected : ∀ e, a.check = .error e → outline = .error e ∧ drawn = .error e := by
    intro e he
    refine ⟨?_, construct_arcTo_of_check_error he⟩
    show (Primitive.arc a).toPath = .error e
    rw [Primitive.toPath, he]
    rfl
  refine ⟨fun hnumbers => hrejected _ ?_, fun hnumbers hradius => hrejected _ ?_,
    fun hnumbers hradius => ?_⟩
  · rw [a.check_eq, if_neg hnumbers]
  · rw [a.check_eq, if_pos hnumbers, if_pos hradius]
  · have hcheck : a.check = .ok () := by rw [a.check_eq, if_pos hnumbers, if_neg hradius]
    refine ⟨_, Primitive.toPath_arc hcheck, rfl, fun s => Arc.exists_quadratic_of_mem_curves,
      fun hplaces => ?_, fun hplaces => ?_⟩
    · have hdrawn := construct_arcTo_of_places hcheck hplaces
      exact ⟨fun hcurves => hdrawn.trans (by rw [if_neg hcurves]),
        fun hcurves => hdrawn.trans (by rw [if_pos hcurves]; rfl)⟩
    · have hresolve := (PenAction.resolve_arcTo_eq_error_iff hcheck).mpr hplaces
      show (act (.arcTo a)).construct = _
      rw [construct_act, hresolve]
      rfl

/-- A third of an ellipse that is turned, drawn by three curves. -/
def tiltedArc : Arc := ⟨⟨1, 2⟩, ⟨3, 1⟩, 0.5, 0.25, 2⟩

theorem construct_tiltedArc :
    tiltedArc.IsDescribed ∧ ¬ tiltedArc.HasNegativeRadius ∧
      (∃ p, (Primitive.arc tiltedArc).toPath = .ok p ∧ p.commands.length = 4 ∧
        (act (.arcTo tiltedArc)).construct =
          .ok ⟨p.commands.map (Command.map Affine.identity.apply)⟩) ∧
      (act (.arcTo { tiltedArc with radii := ⟨-1, 1 / 0⟩ })).construct = .error (.nonFinite .arc) ∧
      (act (.arcTo { tiltedArc with radii := ⟨-1, 1⟩ })).construct = .error (.negativeRadius .arc) := by
  have hnumbers : tiltedArc.IsDescribed := by decide +kernel
  have hradius : ¬ tiltedArc.HasNegativeRadius := by decide +kernel
  have hfinite : ∀ q ∈ tiltedArc.first :: tiltedArc.last :: tiltedArc.curves.flatMap Segment.points,
      q.isFinite ∧ (Affine.identity.apply q).isFinite := by decide +kernel
  have hcurves : tiltedArc.curves ≠ [] := by decide +kernel
  obtain ⟨p, hp, hcommands, -, hdrawn, -⟩ := (construct_arcTo tiltedArc).2.2 hnumbers hradius
  have hlength : p.commands.length = 4 := by
    rw [hcommands]
    decide +kernel
  refine ⟨hnumbers, hradius, ⟨p, hp, hlength, (hdrawn hfinite).1 hcurves⟩, ?_, ?_⟩
  · exact ((construct_arcTo { tiltedArc with radii := ⟨-1, 1 / 0⟩ }).1 (by decide +kernel)).2
  · exact ((construct_arcTo { tiltedArc with radii := ⟨-1, 1⟩ }).2.1 (by decide +kernel)
      (by decide +kernel)).2

end Instruction

end VectorScene
