/-!
# Degenerate geometry

Coordinates, radii and angles must be finite, radii must not be negative, and a polyline needs two
points. `GeometryError` names what was found wrong and `Subject` the thing in which it was found;
`GeometryError.message` gives the wording.
-/

namespace VectorScene

/-- What was being drawn when degenerate geometry was found. -/
inductive Subject where
  | moveTo
  | lineTo
  | quadraticTo
  | cubicTo
  | arcTo
  | arc
  | line
  | cubic
  | polyline
  | path
  | transformed
deriving DecidableEq, Inhabited

/-- The subject as messages spell it. -/
def Subject.name : Subject → String
  | .moveTo => "move_to"
  | .lineTo => "line_to"
  | .quadraticTo => "quadratic_bezier_to"
  | .cubicTo => "cubic_bezier_to"
  | .arcTo => "arc_to"
  | .arc => "arc"
  | .line => "line"
  | .cubic => "cubic bezier"
  | .polyline => "polyline"
  | .path => "path"
  | .transformed => "transformed geometry"

/-- Why a piece of geometry is rejected. -/
inductive GeometryError where
  /-- A coordinate, radius or angle is NaN or infinite. -/
  | nonFinite (subject : Subject)
  /-- A polyline has fewer than two points. -/
  | shortPolyline (points : Nat)
  /-- A radius is below zero. -/
  | negativeRadius (subject : Subject)
deriving DecidableEq, Inhabited

def GeometryError.message : GeometryError → String
  | .nonFinite subject => "non-finite value in " ++ subject.name
  | .shortPolyline points => "polyline has " ++ toString points ++ " point(s), needs at least 2"
  | .negativeRadius subject => "negative radius in " ++ subject.name

end VectorScene
