import VectorScene.Path.Vertices
import VectorScene.Tessellation.Interior
import VectorScene.Tessellation.Outline

/-!
# Tessellators

A `Tessellator` cuts a path into triangles, either its outline, for a pen of some width, or its
interior. It may refuse a path. Nothing but the path, the width and the tolerance for curves has a part
in what it gives. `Tessellator.plain` is one that cuts along the edges of the flattened path.
-/

namespace VectorScene

/-- Why a path was not cut into triangles, as it was reported. -/
structure TessellationError where
  report : String
deriving DecidableEq, Inhabited

namespace TessellationError

def message (e : TessellationError) : String := "tessellation error: " ++ e.report

/-- The tolerance is not above zero. -/
def invalidTolerance : TessellationError := ⟨"UnsupportedParamater(ToleranceIsNaN)"⟩

end TessellationError

structure Tessellator where
  /-- Triangles that cover the outline of a path, drawn with a pen of the given width. -/
  outline : (width tolerance : Float32) → Path → Except TessellationError (List Triangle)
  /-- Triangles that cover the interior of a path. -/
  interior : (tolerance : Float32) → Path → Except TessellationError (List Triangle)

namespace Tessellator

/-- The triangles of a path: of its outline if a width is given, or else of its interior. -/
def triangles (t : Tessellator) (tolerance : Float32) (width? : Option Float32) (path : Path) :
    Except TessellationError (List Triangle) :=
  match width? with
  | some width => t.outline width tolerance path
  | none => t.interior tolerance path

/-- Cuts the outline into strips and corners, and the interior into slabs. -/
def plain : Tessellator where
  outline width tolerance path :=
    let closed := path.events.filterMap Event.closed?
    .ok (Triangle.ofOutline width ((path.vertices tolerance).zip closed))
  interior tolerance path :=
    if path.events.isEmpty then .ok []
    else if 0 < tolerance then .ok (Triangle.ofInterior (path.vertices tolerance))
    else .error .invalidTolerance

end Tessellator

end VectorScene
