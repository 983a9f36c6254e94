import VectorScene.Scalar
import VectorScene.Tessellation.Triangle

/-!
# Coverage of pixels

A raster of some `Extent` has its pixels in rows, and the pixel at column `x` of row `y` has its
center at (x + 0.5, y + 0.5). A triangle covers the pixels whose centers it covers; only the pixels
between its outermost corners are tried. A `Coverage` marks the pixels that some triangle covers and
counts them, each once.

A pixel is marked at its place in the rows. Where the last column or row is too wide a number for a scalar,
pixels may be tried that lie outside of the raster, and have the place of another pixel or none.
`Coverage.mark` leaves out a place that there is not, and `Coverage.mark?` fails there.
-/

namespace VectorScene

structure Extent where
  width : Nat
  height : Nat
deriving DecidableEq, Inhabited

/-- Columns and rows from the first to the last, both included. -/
structure PixelBox where
  x₀ : Nat
  x₁ : Nat
  y₀ : Nat
  y₁ : Nat
deriving DecidableEq, Inhabited

/-- The pixels of a box as pairs of column and row, row by row. -/
def PixelBox.pixels (b : PixelBox) : List (Nat × Nat) :=
  (List.range' b.y₀ (b.y₁ + 1 - b.y₀)).flatMap fun y =>
    (List.range' b.x₀ (b.x₁ + 1 - b.x₀)).map fun x => (x, y)

/-- The center of a pixel. -/
def pixelCenter (x y : Nat) : Point := ⟨Scalar.ofNat x + 0.5, Scalar.ofNat y + 0.5⟩

namespace Extent

/-- The number of pixels. A raster is not meant whose number of pixels does not fit in a machine word. -/
def pixelCount (e : Extent) : Nat := e.width * e.height

/-- The place of a pixel in the rows of a raster. -/
def index (e : Extent) (x y : Nat) : Nat := y * e.width + x

/-- The pixels whose centers lie between the outermost corners of a triangle. -/
def clip (e : Extent) (t : Triangle) : Option PixelBox :=
  if e.width = 0 ∨ e.height = 0 then none
  else
    let x₀ := Scalar.greater (Scalar.ceil (t.lower.x - 0.5)) 0
    let y₀ := Scalar.greater (Scalar.ceil (t.lower.y - 0.5)) 0
    let x₁ := Scalar.lesser (Scalar.floor (t.upper.x - 0.5)) (Scalar.ofNat e.width - 1)
    let y₁ := Scalar.lesser (Scalar.floor (t.upper.y - 0.5)) (Scalar.ofNat e.height - 1)
    if x₀ ≤ x₁ && y₀ ≤ y₁ then
      some ⟨Scalar.toNat x₀, Scalar.toNat x₁, Scalar.toNat y₀, Scalar.toNat y₁⟩
    else none

/-- The pixels that a triangle covers. -/
def covered (e : Extent) (t : Triangle) : List (Nat × Nat) :=
  match e.clip t with
  | some box => box.pixels.filter fun (x, y) => t.covers (pixelCenter x y)
  | none => []

end Extent

/-- Marks on the pixels of a raster, and how many pixels are marked. -/
structure Coverage where
  mask : Array Bool
  count : Nat
deriving DecidableEq, Inhabited

namespace Coverage

def empty (e : Extent) : Coverage := ⟨Array.replicate e.pixelCount false, 0⟩

/-- Marks a place, and counts it unless it is marked already. A place that there is not is left out. -/
def mark (c : Coverage) (i : Nat) : Coverage :=
  if c.mask[i]? = some false then ⟨c.mask.setIfInBounds i true, c.count + 1⟩ else c

/-- Marks a place that is looked up; `none` if there is no such place. -/
def mark? (c : Coverage) (i : Nat) : Option Coverage :=
  if i < c.mask.size then some (c.mark i) else none

/-- Marks the pixels that a triangle covers. -/
def cover (e : Extent) (c : Coverage) (t : Triangle) : Coverage :=
  (e.covered t).foldl (fun c (x, y) => c.mark (e.index x y)) c

@[inherit_doc cover]
def cover? (e : Extent) (c : Coverage) (t : Triangle) : Option Coverage :=
  (e.covered t).foldlM (fun c (x, y) => c.mark? (e.index x y)) c

/-- The pixels that some triangle covers. -/
def ofTriangles (e : Extent) (triangles : List Triangle) : Coverage :=
  triangles.foldl (cover e) (empty e)

/-- The pixels that some triangle covers; `none` if there is no place for one of them. -/
def ofTriangles? (e : Extent) (triangles : List Triangle) : Option Coverage :=
  triangles.foldlM (cover? e) (empty e)

def isMarked (c : Coverage) (i : Nat) : Bool := c.mask.getD i false

end Coverage

end VectorScene
