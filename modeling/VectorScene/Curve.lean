import VectorScene.Scalar
import VectorScene.Segment

/-!
# Flattening of curves

A curve is replaced by lines through points on it. `segmentCount` finds how many lines keep within a
tolerance: the deviation of a curve cut into `n` equal parts falls with `n²`, so the number is the
fourth root of a squared bound on the deviation, rounded up. The last point is always the curve's
target itself, never a computed one.
-/

namespace VectorScene

namespace Curve

/-- The least number of lines whose fourth power is not below `bound`; an infinite number becomes
one. Small numbers are found by comparing with the fourth powers, the others by taking roots. -/
def segmentCount (bound : Float32) : Nat :=
  match (List.range' 1 24).find? fun n => bound ≤ Scalar.ofNat (n * n * n * n) with
  | some n => n
  | none =>
    let n := Scalar.greater (Scalar.ceil bound.sqrt.sqrt) 1
    if n.isInf then 1 else Scalar.toNat n

/-- The points of a curve at `n` parameters, from `t` on and `step` apart. -/
def sample (curve : Float32 → Point) (step : Float32) : Nat → Float32 → Array Point → Array Point
  | 0, _, points => points
  | n + 1, t, points => sample curve step n (t + step) (points.push (curve t))

/-- The points of `n` lines along a curve to `target`. -/
def cut (curve : Float32 → Point) (target : Point) (n : Nat) : List Point :=
  let step := 1 / Scalar.ofNat n
  ((sample curve step (n - 1) step #[]).push target).toList

def quadraticAt (source control target : Point) (t : Float32) : Point :=
  let a₁ := (control - source) * (2 : Float32)
  let a₂ := source + target - control * (2 : Float32)
  (source + a₁ * t) + a₂ * (t * t)

def cubicAt (source control₁ control₂ target : Point) (t : Float32) : Point :=
  let a₁ := (control₁ - source) * (3 : Float32)
  let a₂ := source * (3 : Float32) - control₁ * (6 : Float32) + control₂ * (3 : Float32)
  let a₃ := target - source + (control₁ - control₂) * (3 : Float32)
  ((source + a₁ * t) + a₂ * (t * t)) + a₃ * ((t * t) * t)

/-- The bound whose fourth root is the number of lines for a quadratic curve. -/
def quadraticBound (tolerance : Float32) (source control target : Point) : Float32 :=
  let d := 1 / (8 * tolerance)
  let bend := (source - control * (2 : Float32) + target) * (2 : Float32)
  bend.dot bend * d * d

/-- The bound whose fourth root is the number of lines for a cubic curve. -/
def cubicBound (tolerance : Float32) (source control₁ control₂ target : Point) : Float32 :=
  let d := 1 / (8 * tolerance)
  let bend₁ := (source - control₁ * (2 : Float32) + control₂) * (6 : Float32)
  let bend₂ := (control₁ - control₂ * (2 : Float32) + target) * (6 : Float32)
  Scalar.greater (bend₁.dot bend₁) (bend₂.dot bend₂) * d * d

end Curve

open Curve

/-- The points of the lines that replace a segment from `source`; a line is kept as it is. -/
def Segment.flatten (tolerance : Float32) (source : Point) : Segment → List Point
  | line p => [p]
  | quadratic c p =>
    cut (quadraticAt source c p) p (segmentCount (quadraticBound tolerance source c p))
  | cubic c₁ c₂ p =>
    cut (cubicAt source c₁ c₂ p) p (segmentCount (cubicBound tolerance source c₁ c₂ p))

end VectorScene
