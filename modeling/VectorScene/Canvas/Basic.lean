import VectorScene.Color
import VectorScene.Canvas.Coverage
import VectorScene.Surface
import VectorScene.Tessellation.Tessellator

/-!
# The canvas

A `Canvas` is a raster of colors that can be painted on. A path is cut into triangles by a
tessellator, and every pixel that one of them covers has the color composited over its own, once for
each operation however many triangles cover it. There is no smoothing at the edges. An operation that
fails leaves the canvas as it was.
-/

namespace VectorScene

structure Canvas extends Extent where
  /-- How far the lines that replace a curve may stray from it. -/
  tolerance : Float32 := curveTolerance
  /-- The colors of the pixels, row by row. -/
  pixels : Array Color
  size_pixels : pixels.size = toExtent.pixelCount

/-- The pixels of a raster that a path covers, by its outline if a width is given, or else by its
interior. -/
def Tessellator.coverage (t : Tessellator) (e : Extent) (tolerance : Float32) (width? : Option Float32)
    (path : Path) : Except TessellationError Coverage :=
  (t.triangles tolerance width? path).map (Coverage.ofTriangles e)

namespace Canvas

/-- A transparent canvas. -/
def new (width height : Nat) : Canvas :=
  { width, height
    pixels := Array.replicate (width * height) Color.clear
    size_pixels := Array.size_replicate }

def withTolerance (c : Canvas) (tolerance : Float32) : Canvas := { c with tolerance := tolerance }

/-- The color at a column and a row; `none` outside the canvas. -/
def pixel (c : Canvas) (x y : Nat) : Option Color :=
  if x < c.width ∧ y < c.height then c.pixels[c.index x y]? else none

/-- Gives every pixel the same color. -/
def clear (color : Color) (c : Canvas) : Canvas :=
  { c with
    pixels := c.pixels.map fun _ => color
    size_pixels := by simp [c.size_pixels] }

/-- Composites a color over every pixel that is marked. -/
def composite (color : Color) (coverage : Coverage) (c : Canvas) : Canvas :=
  { c with
    pixels := c.pixels.mapIdx fun i old => if coverage.isMarked i then color.onto old else old
    size_pixels := by simp [c.size_pixels] }

/-- Composites a color over what triangles cover, and tells how many pixels that are; `none` if there is no
place for one of them. -/
def compositeTriangles? (color : Color) (triangles : List Triangle) (c : Canvas) : Option (Canvas × Nat) :=
  (Coverage.ofTriangles? c.toExtent triangles).map fun coverage =>
    (c.composite color coverage, coverage.count)

/-- Paints a path with a tool, cut into triangles by a tessellator. A pixel for which there is no place is
left out; `compositeTriangles?` tells whether all pixels have theirs. -/
def paintBy (t : Tessellator) (tool : Tool) (path : Path) : EStateM TessellationError Canvas Unit :=
  fun c =>
    match t.coverage c.toExtent c.tolerance tool.width? path with
    | .ok coverage => .ok () (c.composite tool.color coverage)
    | .error e => .error e c

/-- Paints the outline of a path with a pen of the given width. -/
def stroke (t : Tessellator) (color : Color) (width : Float32) (path : Path) :
    EStateM TessellationError Canvas Unit :=
  paintBy t (.stroke color width) path

/-- Paints the interior of a path. -/
def fill (t : Tessellator) (color : Color) (path : Path) : EStateM TessellationError Canvas Unit :=
  paintBy t (.fill color) path

/-- The canvas as a surface. -/
def surfaceBy (t : Tessellator) : Surface Canvas where
  stroke color width path := (stroke t color width path).adaptExcept TessellationError.message
  fill color path := (fill t color path).adaptExcept TessellationError.message

/-- The messages of a painting operation on a canvas. -/
def messages (t : Tessellator) (d : Drawable) (c : Canvas) : List Message :=
  d.path.messages ++
    match t.triangles c.tolerance d.tool.width? d.path with
    | .ok triangles => [.covered triangles.length (Coverage.ofTriangles c.toExtent triangles).count]
    | .error _ => []

/-- The canvas as a surface, with the plain tessellator. -/
def surface : Surface Canvas := surfaceBy .plain

end Canvas

end VectorScene
