import VectorScene.Error

/-!
# Points

A `Point` is a pair of coordinates, read as a position or as a displacement. Points are compared
by the equality of their coordinates as numbers: a point with a NaN coordinate differs from itself,
and the two zeros are equal.
-/

namespace VectorScene

structure Point where
  x : Float32
  y : Float32
deriving BEq, DecidableEq, Inhabited

namespace Point

def origin : Point := ⟨0, 0⟩

instance : Add Point := ⟨fun p q => ⟨p.x + q.x, p.y + q.y⟩⟩

instance : Sub Point := ⟨fun p q => ⟨p.x - q.x, p.y - q.y⟩⟩

/-- Both coordinates times a factor. -/
instance : HMul Point Float32 Point := ⟨fun p k => ⟨p.x * k, p.y * k⟩⟩

def dot (p q : Point) : Float32 := p.x * q.x + p.y * q.y

/-- Twice the signed area spanned by two displacements. -/
def cross (p q : Point) : Float32 := p.x * q.y - p.y * q.x

def isFinite (p : Point) : Bool := p.x.isFinite && p.y.isFinite

/-- The lower of each coordinate; where they do not compare, the one of `q`. -/
def lower (p q : Point) : Point :=
  ⟨if p.x ≤ q.x then p.x else q.x, if p.y ≤ q.y then p.y else q.y⟩

/-- The upper of each coordinate; where they do not compare, the one of `q`. -/
def upper (p q : Point) : Point :=
  ⟨if q.x ≤ p.x then p.x else q.x, if q.y ≤ p.y then p.y else q.y⟩

/-- Fails unless all points are finite. -/
def checkAll (subject : Subject) (points : List Point) : Except GeometryError Unit :=
  if points.all isFinite then .ok () else .error (.nonFinite subject)

end Point

end VectorScene
