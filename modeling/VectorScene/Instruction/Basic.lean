import VectorScene.Pen

/-!
# Instructions

An `Instruction` is a program for a pen: nothing, one step, two instructions in turn, or an
instruction that runs in a coordinate frame of its own. Programs are put together with
`Instruction.combine`, which leaves out empty operands; the constructor `Instruction.seq` keeps
them.
-/

namespace VectorScene

inductive Instruction where
  | empty
  | act (action : PenAction)
  /-- Runs `nested` under `frame`, and then returns to the frame that was active before. -/
  | within (frame : Affine) (nested : Instruction)
  /-- Runs `first`, and then `second`. -/
  | seq (first second : Instruction)
deriving DecidableEq, Inhabited

namespace Instruction

/-- The number of nodes of the tree. -/
def nodeCount : Instruction → Nat
  | empty => 1
  | act _ => 1
  | within _ i => i.nodeCount + 1
  | seq a b => a.nodeCount + b.nodeCount + 1

theorem nodeCount_pos (i : Instruction) : 0 < i.nodeCount := by
  cases i <;> simp [nodeCount]

def isEmpty : Instruction → Bool
  | empty => true
  | _ => false

/-- Runs `first`, and then `second`; an empty operand is left out. -/
def combine (first second : Instruction) : Instruction :=
  if first.isEmpty then second else if second.isEmpty then first else seq first second

/-- Runs all instructions in order. -/
def sequence (instructions : List Instruction) : Instruction := instructions.foldl combine empty

def moveTo (p : Point) : Instruction := act (.moveTo p)

def lineTo (p : Point) : Instruction := act (.draw (.line p))

/-! ## Closed figures -/

/-- A closed figure through the given points. -/
def polygon : List Point → Instruction
  | [] => empty
  | p :: ps => sequence (moveTo p :: ps.map lineTo ++ [act .closeFigure])

/-- A closed rectangle with its sides along the coordinate axes. -/
def rectangle (corner size : Point) : Instruction :=
  polygon
    [corner, ⟨corner.x + size.x, corner.y⟩, ⟨corner.x + size.x, corner.y + size.y⟩,
      ⟨corner.x, corner.y + size.y⟩]

/-- A closed ellipse with its axes along the coordinate axes. -/
def ellipse (center radii : Point) : Instruction :=
  sequence [act .startFigure, act (.arcTo (Arc.ellipse center radii)), act .closeFigure]

end Instruction

end VectorScene
