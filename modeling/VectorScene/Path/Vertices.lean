import VectorScene.Path.Event

/-!
# Vertices and bounds

The vertices of a flattened path are grouped by figure: a figure's vertices are its first point and
the ends of its lines, and a closed figure repeats its first point at the end. The bounds of a path
are those of its vertices.
-/

namespace VectorScene

/-- The tolerance for curves where none is given. -/
def curveTolerance : Float32 := 0.1

namespace Path

/-- The vertices read so far: whole figures, and the figure being read. -/
structure Grouping where
  figures : Array (List Point) := #[]
  figure : Array Point := #[]

namespace Grouping

/-- Moves the figure being read to the whole ones, if it has a vertex. -/
def leave (g : Grouping) : Grouping :=
  if g.figure.isEmpty then g else { figures := g.figures.push g.figure.toList, figure := #[] }

def read (g : Grouping) : Event → Grouping
  | .start p => { g.leave with figure := #[p] }
  | .draw _ s => { g with figure := g.figure.push s.target }
  | .finish _ first closed =>
    let figure := if closed then g.figure.push first else g.figure
    { figures := g.figures.push figure.toList, figure := #[] }

end Grouping

/-- The vertices of the flattened path, figure by figure. -/
def vertices (p : Path) (tolerance : Float32) : List (List Point) :=
  ((p.flatEvents tolerance).foldl Grouping.read {}).leave.figures.toList

/-- The lower and the upper corner of the flattened path; `none` if it has no vertex. -/
def bounds (p : Path) : Option (Point × Point) :=
  match (p.vertices curveTolerance).flatten with
  | [] => none
  | v :: vs => some (vs.foldl (fun (low, high) w => (low.lower w, high.upper w)) (v, v))

end Path

end VectorScene
