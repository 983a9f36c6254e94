import VectorScene.Arc
import VectorScene.Path.Basic

/-!
# Primitives

A `Primitive` describes a shape, and `Primitive.toPath` turns it into a path after checking that it
is not degenerate. All but `Primitive.path` become a single open figure.
-/

namespace VectorScene

inductive Primitive where
  | arc (arc : Arc)
  | cubicBezier (source control₁ control₂ target : Point)
  | line (source target : Point)
  /-- An open polyline through at least two points. -/
  | polyline (points : List Point)
  /-- A path that is already compiled. -/
  | path (path : Path)
deriving BEq, DecidableEq, Inhabited

namespace Primitive

def toPath : Primitive → Except GeometryError Path
  | line p q => do
    Point.checkAll .line [p, q]
    return ⟨[.moveTo p, .draw (.line q)]⟩
  | cubicBezier p c₁ c₂ q => do
    Point.checkAll .cubic [p, c₁, c₂, q]
    return ⟨[.moveTo p, .draw (.cubic c₁ c₂ q)]⟩
  | polyline (p :: q :: ps) => do
    Point.checkAll .polyline (p :: q :: ps)
    return ⟨.moveTo p :: (q :: ps).map fun r => .draw (.line r)⟩
  | polyline points => throw (.shortPolyline points.length)
  | arc a => do
    a.check
    return ⟨.moveTo a.first :: a.curves.map .draw⟩
  | path p => do
    p.check .path
    return p

end Primitive

end VectorScene
