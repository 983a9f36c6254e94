import VectorScene.Tessellation.Triangle

/-!
# The outline of figures

The outline of a figure is what a pen of some width covers that is drawn along it. Each line of the
figure becomes a rectangle that ends squarely at its ends. Where two lines meet, the wedge between
their rectangles is filled, and a miter is added up to the point in which their outer sides meet,
unless that point is too far away.
-/

namespace VectorScene

namespace Outline

/-- How far the point of a miter may be away, as a multiple of half the width. -/
def miterLimit : Float32 := 4

/-- The displacement to the left of a line, as long as half the width. -/
def normal (half : Float32) (p q : Point) : Point :=
  let d := q - p
  (⟨-d.y, d.x⟩ : Point) * (half / (d.dot d).sqrt)

/-- The rectangle along a line. -/
def strip (half : Float32) (p q : Point) : List Triangle :=
  let n := normal half p q
  Triangle.ofQuad (p + n) (q + n) (q - n) (p - n)

/-- The wedge and the miter where the line from `p` to `q` meets the line from `q` to `r`. -/
def corner (half : Float32) (p q r : Point) : List Triangle :=
  let outward : Float32 := if 0 < (q - p).cross (r - q) then -1 else 1
  let n₁ := normal half p q * outward
  let n₂ := normal half q r * outward
  let tip := (n₁ + n₂) * (half * half / (half * half + n₁.dot n₂))
  let reach := miterLimit * half
  ⟨q, q + n₁, q + n₂⟩ ::
    if tip.dot tip ≤ reach * reach then [⟨q + n₁, q + tip, q + n₂⟩] else []

def strips (half : Float32) : List Point → List Triangle
  | p :: q :: ps => strip half p q ++ strips half (q :: ps)
  | _ => []

def corners (half : Float32) : List Point → List Triangle
  | p :: q :: r :: ps => corner half p q r ++ corners half (q :: r :: ps)
  | _ => []

/-- The outline of a figure with the given vertices, where a closed figure repeats its first one. -/
def figure (half : Float32) (vertices : List Point) (closed : Bool) : List Triangle :=
  let vertices := vertices.eraseReps
  strips half vertices ++
    corners half (if closed then vertices ++ (vertices.drop 1).take 1 else vertices)

end Outline

/-- Triangles that cover the outline of figures, each given by its vertices and whether it is
closed. -/
def Triangle.ofOutline (width : Float32) (figures : List (List Point × Bool)) : List Triangle :=
  figures.flatMap fun (vertices, closed) => Outline.figure (width.abs * 0.5) vertices closed

end VectorScene
