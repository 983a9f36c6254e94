import VectorScene.Point
import VectorScene.Trigonometry

/-!
# Affine maps of the plane

An `Affine` is a matrix of three rows and two columns that acts on row vectors: the first two rows
are the linear part, the third is the translation. `compose outer inner` maps a point by `inner`
first. Two tests of identity are used: `==` against `Affine.identity` is exact, and
`Affine.isNearIdentity` allows for the rounding of a product of matrices.
-/

namespace VectorScene

structure Affine where
  m11 : Float32
  m12 : Float32
  m21 : Float32
  m22 : Float32
  m31 : Float32
  m32 : Float32
deriving BEq, DecidableEq, Inhabited

namespace Affine

def identity : Affine := ⟨1, 0, 0, 1, 0, 0⟩

def translation (dx dy : Float32) : Affine := ⟨1, 0, 0, 1, dx, dy⟩

def scale (sx sy : Float32) : Affine := ⟨sx, 0, 0, sy, 0, 0⟩

/-- The rotation about the origin by an angle in radians. -/
def rotation (angle : Float32) : Affine :=
  let s := Scalar.sin angle
  let c := Scalar.cos angle
  ⟨c, s, 0 - s, c, 0, 0⟩

/-- The map that applies `first` and then `next`. -/
def andThen (first next : Affine) : Affine :=
  { m11 := first.m11 * next.m11 + first.m12 * next.m21
    m12 := first.m11 * next.m12 + first.m12 * next.m22
    m21 := first.m21 * next.m11 + first.m22 * next.m21
    m22 := first.m21 * next.m12 + first.m22 * next.m22
    m31 := first.m31 * next.m11 + first.m32 * next.m21 + next.m31
    m32 := first.m31 * next.m12 + first.m32 * next.m22 + next.m32 }

/-- The map that applies `inner` and then `outer`. -/
def compose (outer inner : Affine) : Affine := inner.andThen outer

/-- A product is a composition. -/
instance : Mul Affine := ⟨compose⟩

/-- The rotation about `pivot` by an angle in radians. -/
def rotationAbout (angle : Float32) (pivot : Point) : Affine :=
  ((translation (-pivot.x) (-pivot.y)).andThen (rotation angle)).andThen
    (translation pivot.x pivot.y)

/-- The largest deviation of the linear part that still counts as near the identity. -/
def linearTolerance : Float32 := 1e-5

/-- The largest translation that still counts as near the identity. -/
def translationTolerance : Float32 := 1e-4

/-- Whether every coefficient is within its tolerance of the identity's. -/
def isNearIdentity (m : Affine) : Bool :=
  (m.m11 - 1).abs ≤ linearTolerance
    && m.m12.abs ≤ linearTolerance
    && m.m21.abs ≤ linearTolerance
    && (m.m22 - 1).abs ≤ linearTolerance
    && m.m31.abs ≤ translationTolerance
    && m.m32.abs ≤ translationTolerance

def determinant (m : Affine) : Float32 := m.m11 * m.m22 - m.m12 * m.m21

/-- The inverse map, unless the determinant is zero. -/
def inverse? (m : Affine) : Option Affine :=
  if m.determinant == 0 then none
  else
    let k := 1 / m.determinant
    some
      { m11 := k * m.m22
        m12 := k * (0 - m.m12)
        m21 := k * (0 - m.m21)
        m22 := k * m.m11
        m31 := k * (m.m21 * m.m32 - m.m22 * m.m31)
        m32 := k * (m.m31 * m.m12 - m.m11 * m.m32) }

/-- The image of a position. -/
def apply (m : Affine) (p : Point) : Point :=
  ⟨p.x * m.m11 + p.y * m.m21 + m.m31, p.x * m.m12 + p.y * m.m22 + m.m32⟩

/-- The image of a displacement, which a translation does not move. -/
def applyLinear (m : Affine) (p : Point) : Point :=
  ⟨p.x * m.m11 + p.y * m.m21, p.x * m.m12 + p.y * m.m22⟩

/-- The image of a point, where both the point and its image must be finite. -/
def place (m : Affine) (subject : Subject) (p : Point) : Except GeometryError Point :=
  if p.isFinite && (m.apply p).isFinite then .ok (m.apply p) else .error (.nonFinite subject)

end Affine

end VectorScene
