import VectorScene.Point

/-!
# Segments

A `Segment` continues a figure from its last point to a new one, along a line or a Bézier curve.
`Segment.mapM` and `Segment.map` visit its points in the order in which they are written: control
points first, the target last.
-/

namespace VectorScene

inductive Segment where
  | line (target : Point)
  | quadratic (control target : Point)
  | cubic (control₁ control₂ target : Point)
deriving BEq, DecidableEq, Inhabited

namespace Segment

/-- The point at which the segment ends. -/
def target : Segment → Point
  | line p => p
  | quadratic _ p => p
  | cubic _ _ p => p

def points : Segment → List Point
  | line p => [p]
  | quadratic c p => [c, p]
  | cubic c₁ c₂ p => [c₁, c₂, p]

def map (f : Point → Point) : Segment → Segment
  | line p => line (f p)
  | quadratic c p => quadratic (f c) (f p)
  | cubic c₁ c₂ p => cubic (f c₁) (f c₂) (f p)

def mapM {m : Type → Type} [Monad m] (f : Point → m Point) : Segment → m Segment
  | line p => return line (← f p)
  | quadratic c p => return quadratic (← f c) (← f p)
  | cubic c₁ c₂ p => return cubic (← f c₁) (← f c₂) (← f p)

/-- What the segment is to a pen that draws it. -/
def subject : Segment → Subject
  | line _ => .lineTo
  | quadratic _ _ => .quadraticTo
  | cubic _ _ _ => .cubicTo

end Segment

end VectorScene
