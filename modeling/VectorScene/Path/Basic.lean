import VectorScene.Affine
import VectorScene.Segment

/-!
# Paths

A `Path` is a list of commands. A figure is a `moveTo`, then the segments drawn from it, and a
`close` if it is closed. A path may be written by hand, so nothing here asks that segments lie
within a figure; `VectorScene.Path.Event` says what becomes of those that do not.
-/

namespace VectorScene

inductive Command where
  /-- Starts a figure at a point. -/
  | moveTo (p : Point)
  /-- Continues the figure. -/
  | draw (segment : Segment)
  /-- Closes the figure. -/
  | close
deriving BEq, DecidableEq, Inhabited

namespace Command

def points : Command → List Point
  | moveTo p => [p]
  | draw s => s.points
  | close => []

def map (f : Point → Point) : Command → Command
  | moveTo p => moveTo (f p)
  | draw s => draw (s.map f)
  | close => close

def mapM {m : Type → Type} [Monad m] (f : Point → m Point) : Command → m Command
  | moveTo p => return moveTo (← f p)
  | draw s => return draw (← s.mapM f)
  | close => return close

def isMoveTo : Command → Bool
  | moveTo _ => true
  | _ => false

/-- Whether two commands are of one kind and their coordinates differ by at most `eps`. -/
def isNear (eps : Float32) (a b : Command) : Bool :=
  let near (p q : Point) : Bool := (p.x - q.x).abs ≤ eps && (p.y - q.y).abs ≤ eps
  match a, b with
  | moveTo p, moveTo q => near p q
  | draw (.line p), draw (.line q) => near p q
  | draw (.quadratic c p), draw (.quadratic d q) => near c d && near p q
  | draw (.cubic c₁ c₂ p), draw (.cubic d₁ d₂ q) => near c₁ d₁ && near c₂ d₂ && near p q
  | close, close => true
  | _, _ => false

end Command

structure Path where
  commands : List Command
deriving BEq, DecidableEq, Inhabited

namespace Path

def empty : Path := ⟨[]⟩

def isEmpty (p : Path) : Bool := p.commands.isEmpty

/-- The number of figures that the path starts. -/
def figureCount (p : Path) : Nat := p.commands.countP Command.isMoveTo

def points (p : Path) : List Point := p.commands.flatMap Command.points

/-- The path with each point mapped; the exact identity leaves even the points it would round or
whose zeros it would change. -/
def transformed (p : Path) (m : Affine) : Path :=
  if m == Affine.identity then p else ⟨p.commands.map (Command.map m.apply)⟩

/-- The figures of `p` and then those of `q`. -/
def extend (p q : Path) : Path := ⟨p.commands ++ q.commands⟩

/-- Whether two paths have the same commands up to `eps` in each coordinate. -/
def isNear (eps : Float32) (p q : Path) : Bool :=
  p.commands.length == q.commands.length
    && (p.commands.zip q.commands).all fun (a, b) => a.isNear eps b

/-- Fails unless every point of the path is finite. -/
def check (subject : Subject) (p : Path) : Except GeometryError Unit :=
  Point.checkAll subject p.points

end Path

end VectorScene
