import VectorScene.Arc
import VectorScene.Log
import VectorScene.Path.Basic

/-!
# The pen

A `Pen` records figures. Each point that it is given is mapped through the transform that is active
at that moment, so a later transform does not move it, and the cursor is kept in the coordinates of
the result. A segment that is drawn while no figure is open starts one at the cursor.

The steps of a pen run in `PenM`, where a step that fails keeps the state it has reached; each step
checks all that it is given before it changes anything. `PenAction` lists the steps as data.
-/

namespace VectorScene

structure Figure where
  start : Point
  segments : Array Segment := #[]
  closed : Bool := false
deriving BEq, DecidableEq, Inhabited

namespace Figure

/-- The commands that draw the figure; a figure without segments draws nothing. -/
def commands (f : Figure) : List Command :=
  if f.segments.isEmpty then []
  else
    .moveTo f.start :: f.segments.toList.map .draw ++ (if f.closed then [.close] else [])

end Figure

structure Pen where
  figures : Array Figure := #[]
  /-- The index of the figure to which segments are added. -/
  current : Option Nat := none
  cursor : Point := Point.origin
  /-- The map of the points that are still to come. -/
  transform : Affine := Affine.identity
deriving DecidableEq, Inhabited

/-- A step of a pen. -/
abbrev PenM := EStateM GeometryError Pen

namespace Pen

/-- Ends the open figure without closing it. -/
def startFigure : PenM Unit := modify fun pen => { pen with current := none }

def setTransform (m : Affine) : PenM Unit := modify fun pen => { pen with transform := m }

def setCursor (p : Point) : PenM Unit := modify fun pen => { pen with cursor := p }

/-- The image of a point under the active transform. -/
def place (subject : Subject) (p : Point) : PenM Point := do
  ofExcept ((← get).transform.place subject p)

/-- Ends the open figure and moves the cursor. -/
def moveTo (p : Point) : PenM Unit := do
  let p ← place .moveTo p
  startFigure
  setCursor p

/-- The index of the open figure, which is started at the cursor if there is none. -/
def openFigure : PenM Nat :=
  modifyGet fun pen =>
    match pen.current with
    | some i => (i, pen)
    | none =>
      let i := pen.figures.size
      (i, { pen with figures := pen.figures.push { start := pen.cursor }, current := some i })

/-- Adds segments in final coordinates to the open figure. -/
def extend (segments : List Segment) : PenM Unit := do
  let i ← openFigure
  modify fun pen =>
    { pen with
      figures := pen.figures.modify i fun f => { f with segments := f.segments ++ segments } }

/-- Adds a segment in final coordinates and moves the cursor to its end. -/
def push (segment : Segment) : PenM Unit := do
  extend [segment]
  setCursor segment.target

def draw (segment : Segment) : PenM Unit := do
  push (← segment.mapM (place segment.subject))

/-- Draws an arc by curves that are computed before the transform is applied. An open figure is
joined to the start of the arc by a line; otherwise a figure starts there. -/
def arcTo (a : Arc) : PenM Unit := do
  ofExcept a.check
  let first ← place .arcTo a.first
  let last ← place .arcTo a.last
  let curves ← a.curves.mapM (Segment.mapM (place .arcTo))
  if (← get).current.isSome then push (.line first) else setCursor first
  extend curves
  setCursor last

/-- The start of the figure with index `i`, or the cursor if there is no such figure. -/
def startOf (pen : Pen) (i : Nat) : Point :=
  (pen.figures[i]?.map Figure.start).getD pen.cursor

/-- Closes the open figure and returns the cursor to its start. -/
def closeFigure : PenM Unit :=
  modify fun pen =>
    match pen.current with
    | some i =>
      { pen with
        cursor := pen.startOf i
        figures := pen.figures.modify i fun f => { f with closed := true }
        current := none }
    | none => pen

/-- Closes every figure so far; the cursor returns to the start of the open one. -/
def closeAllFigures : PenM Unit :=
  modify fun pen =>
    { pen with
      cursor := match pen.current with
        | some i => pen.startOf i
        | none => pen.cursor
      figures := pen.figures.map fun f => { f with closed := true }
      current := none }

/-- The path of all figures that have a segment. -/
def build (pen : Pen) : Path := ⟨pen.figures.toList.flatMap Figure.commands⟩

/-- The number of figures without a segment, which `build` leaves out. -/
def dropped (pen : Pen) : Nat := pen.figures.toList.countP fun f => f.segments.isEmpty

/-- The message of a path that is built, if a figure was left out. -/
def messages (pen : Pen) : List Message :=
  if pen.dropped = 0 then [] else [.figuresDropped pen.dropped]

end Pen

/-- A step of a pen, as data. -/
inductive PenAction where
  | moveTo (p : Point)
  | draw (segment : Segment)
  | arcTo (arc : Arc)
  | startFigure
  | closeFigure
  | closeAllFigures
  | setTransform (m : Affine)
deriving BEq, DecidableEq, Inhabited

def PenAction.perform : PenAction → PenM Unit
  | moveTo p => Pen.moveTo p
  | draw s => Pen.draw s
  | arcTo a => Pen.arcTo a
  | startFigure => Pen.startFigure
  | closeFigure => Pen.closeFigure
  | closeAllFigures => Pen.closeAllFigures
  | setTransform m => Pen.setTransform m

end VectorScene
