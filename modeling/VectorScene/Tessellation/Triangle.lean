import VectorScene.Point

/-!
# Triangles

A `Triangle` covers the points inside it and those on its edges. A triangle without area covers the
points of its edges only.
-/

namespace VectorScene

structure Triangle where
  a : Point
  b : Point
  c : Point
deriving BEq, DecidableEq, Inhabited

namespace Triangle

/-- On which side of the line from `p` to `q` a point lies, as a sign. -/
def side (p q point : Point) : Float32 := (q - p).cross (point - p)

/-- Whether a point lies on one side of all edges, or on them. -/
def covers (t : Triangle) (p : Point) : Bool :=
  let sides := [side t.b t.c p, side t.c t.a p, side t.a t.b p]
  (sides.all fun s => 0 ≤ s) || (sides.all fun s => s ≤ 0)

/-- The lowest coordinates of the corners. -/
def lower (t : Triangle) : Point := (t.a.lower t.b).lower t.c

/-- The highest coordinates of the corners. -/
def upper (t : Triangle) : Point := (t.a.upper t.b).upper t.c

/-- The triangles between four corners in turn. Both diagonals are used, so a point that rounding
puts outside both triangles at one of them is inside a triangle at the other. -/
def ofQuad (p q r s : Point) : List Triangle := [⟨p, q, r⟩, ⟨p, r, s⟩, ⟨p, q, s⟩, ⟨q, r, s⟩]

end Triangle

end VectorScene
