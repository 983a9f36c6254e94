import VectorScene.Segment
import VectorScene.Trigonometry

/-!
# Elliptic arcs

An `Arc` runs along an ellipse from a start angle through a sweep; both angles are measured from
the ellipse's own axis, which is turned by `xRotation`. `Arc.curves` replaces it by quadratic
curves of at most an eighth of a turn each, and never by more than a full turn.
-/

namespace VectorScene

structure Arc where
  center : Point
  radii : Point
  xRotation : Float32
  startAngle : Float32
  sweepAngle : Float32
deriving BEq, DecidableEq, Inhabited

namespace Arc

/-- A full circle. -/
def circle (center : Point) (radius : Float32) : Arc :=
  ⟨center, ⟨radius, radius⟩, 0, 0, Scalar.turn⟩

/-- A full ellipse with its axes along the coordinate axes. -/
def ellipse (center radii : Point) : Arc := ⟨center, radii, 0, 0, Scalar.turn⟩

/-- Fails on numbers that are not finite, before it fails on a negative radius. -/
def check (a : Arc) : Except GeometryError Unit :=
  if a.radii.isFinite && a.xRotation.isFinite && a.startAngle.isFinite && a.sweepAngle.isFinite
      && a.center.isFinite then
    if a.radii.x < 0 || a.radii.y < 0 then .error (.negativeRadius .arc) else .ok ()
  else .error (.nonFinite .arc)

/-- A displacement along the ellipse's axes, in the directions of the plane. -/
def turned (a : Arc) (p : Point) : Point :=
  let s := Scalar.sin a.xRotation
  let c := Scalar.cos a.xRotation
  ⟨p.x * c - p.y * s, p.y * c + p.x * s⟩

/-- The point of the ellipse at an angle. -/
def pointAt (a : Arc) (angle : Float32) : Point :=
  a.center + a.turned ⟨a.radii.x * Scalar.cos angle, a.radii.y * Scalar.sin angle⟩

/-- The direction of the ellipse at an angle. -/
def directionAt (a : Arc) (angle : Float32) : Point :=
  a.turned ⟨-a.radii.x * Scalar.sin angle, a.radii.y * Scalar.cos angle⟩

def first (a : Arc) : Point := a.pointAt (a.startAngle + a.sweepAngle * 0)

def last (a : Arc) : Point := a.pointAt (a.startAngle + a.sweepAngle * 1)

/-- The length of the sweep that is drawn, at most a full turn. -/
def extent (a : Arc) : Float32 := Scalar.lesser a.sweepAngle.abs Scalar.turn

/-- The number of curves, one for each eighth of a turn that is begun. -/
def curveCount (a : Arc) : Nat := Scalar.toNat (Scalar.ceil (a.extent / Scalar.eighthTurn))

/-- The signed angle that each curve spans. -/
def step (a : Arc) : Float32 :=
  let sign : Float32 := if a.sweepAngle.toBits &&& 0x80000000 == 0 then 1 else -1
  a.extent / Scalar.ceil (a.extent / Scalar.eighthTurn) * sign

/-- The curve from the `i`-th division of the arc to the next. -/
def curve (a : Arc) (i : Nat) : Segment :=
  let from₀ := a.startAngle + a.step * Scalar.ofNat i
  let to₀ := a.startAngle + a.step * Scalar.ofNat (i + 1)
  let tangent := a.directionAt from₀ * Scalar.smallTan (a.step * 0.5)
  .quadratic (a.pointAt from₀ + tangent) (a.pointAt to₀)

/-- The curves of the arc in order; there are none if it sweeps nothing. -/
def curves (a : Arc) : List Segment := (List.range a.curveCount).map a.curve

end Arc

end VectorScene
