import VectorScene.Tessellation.Triangle

/-!
# The interior of figures

A point is inside a set of figures if they wind round it, all counted together with their direction,
a number of times that is not zero. The interior is cut at every height at which an edge begins,
ends or crosses another; between two such heights it consists of quadrangles with two level sides,
found by walking from left to right and adding up the windings of the edges. An open figure is
closed by the edge from its last point to its first.
-/

namespace VectorScene

/-- An edge that is not level, from its top to its bottom, where heights grow downwards. -/
structure Edge where
  top : Point
  bottom : Point
  /-- The direction in which the figure runs along the edge: 1 downwards, -1 upwards. -/
  winding : Int
deriving Inhabited

namespace Edge

/-- The edge between two points; a level one does not bound the interior from the side. -/
def between? (p q : Point) : Option Edge :=
  if p.y < q.y then some ⟨p, q, 1⟩ else if q.y < p.y then some ⟨q, p, -1⟩ else none

/-- The edges of a figure, closed. -/
def ofFigure : List Point → List Edge
  | [] => []
  | p :: ps => (List.zipWith between? (p :: ps) (ps ++ [p])).filterMap id

/-- Where the edge is at a height; at its ends it is there exactly. -/
def xAt (e : Edge) (y : Float32) : Float32 :=
  if y == e.top.y then e.top.x
  else if y == e.bottom.y then e.bottom.x
  else e.top.x + (e.bottom.x - e.top.x) * ((y - e.top.y) / (e.bottom.y - e.top.y))

def pointAt (e : Edge) (y : Float32) : Point := ⟨e.xAt y, y⟩

/-- The height at which two edges cross between their ends. -/
def crossing? (e f : Edge) : Option Float32 :=
  let y₀ := if e.top.y < f.top.y then f.top.y else e.top.y
  let y₁ := if e.bottom.y < f.bottom.y then e.bottom.y else f.bottom.y
  if y₀ < y₁ then
    let gap₀ := e.xAt y₀ - f.xAt y₀
    let gap₁ := e.xAt y₁ - f.xAt y₁
    if gap₀ < 0 && 0 < gap₁ || 0 < gap₀ && gap₁ < 0 then
      some (y₀ + (y₁ - y₀) * (gap₀ / (gap₀ - gap₁)))
    else none
  else none

/-- The heights at which two of the edges cross. -/
def crossings : List Edge → List Float32
  | [] => []
  | e :: es => es.filterMap e.crossing? ++ crossings es

/-- The heights at which the interior is cut, from the top down. -/
def levels (edges : List Edge) : List Float32 :=
  let ends := edges.flatMap fun e => [e.top.y, e.bottom.y]
  ((ends ++ crossings edges).mergeSort fun y z => y ≤ z).eraseReps

/-- The pairs of edges between which the interior lies, where the edges are given from left to
right, with the winding and the left edge of the interior so far. -/
def spans : List Edge → Int → Option Edge → List (Edge × Edge)
  | [], _, _ => []
  | e :: es, winding, none => spans es (winding + e.winding) (some e)
  | e :: es, winding, some left =>
    if winding + e.winding = 0 then (left, e) :: spans es 0 none
    else spans es (winding + e.winding) (some left)

/-- The interior between two heights at which it is cut; edges that coincide bound nothing. -/
def slab (edges : List Edge) (y₀ y₁ : Float32) : List Triangle :=
  let middle := y₀ + (y₁ - y₀) * 0.5
  let across := edges.filter fun e => e.top.y ≤ y₀ && y₁ ≤ e.bottom.y
  let ordered := across.mergeSort fun e f => e.xAt middle ≤ f.xAt middle
  (spans ordered 0 none).flatMap fun (l, r) =>
    if l.xAt y₀ == r.xAt y₀ && l.xAt y₁ == r.xAt y₁ then []
    else Triangle.ofQuad (l.pointAt y₀) (r.pointAt y₀) (r.pointAt y₁) (l.pointAt y₁)

end Edge

namespace Triangle

/-- Triangles that cover the interior of figures, each given by its vertices. -/
def ofInterior (figures : List (List Point)) : List Triangle :=
  let edges := figures.flatMap Edge.ofFigure
  let levels := Edge.levels edges
  (levels.zip levels.tail).flatMap fun (y₀, y₁) => Edge.slab edges y₀ y₁

end Triangle

end VectorScene
