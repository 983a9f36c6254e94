import VectorScene.Instruction.Basic

/-!
# Compiling instructions

An instruction compiles to the path that a new pen has drawn when it has run it. `Instruction.run`
is the meaning of an instruction as a step of a pen. `Instruction.compile` runs it with a stack of
pending steps instead: a frame that is entered leaves behind it a step that returns to the frame
active before, so deep trees need no deep calls. It also counts the nodes that it visits.
-/

namespace VectorScene

namespace Instruction

/-- What an instruction does to a pen. -/
def run : Instruction → PenM Unit
  | empty => pure ()
  | act a => a.perform
  | within m i => do
    let outer := (← get).transform
    Pen.setTransform m
    i.run
    Pen.setTransform outer
  | seq a b => do
    a.run
    b.run

/-- A pending step of a compilation. -/
inductive Step where
  | run (instruction : Instruction)
  /-- Returns to the frame that was active before another one was entered. -/
  | restore (frame : Affine)

def Step.cost : Step → Nat
  | .run i => 2 * i.nodeCount
  | .restore _ => 1

/-- Runs all pending steps, and returns the pen and the number of nodes visited. -/
def runSteps : List Step → Nat → Pen → Except GeometryError (Pen × Nat)
  | [], visited, pen => .ok (pen, visited)
  | .restore m :: steps, visited, pen => runSteps steps visited { pen with transform := m }
  | .run empty :: steps, visited, pen => runSteps steps (visited + 1) pen
  | .run (act a) :: steps, visited, pen =>
    match a.perform pen with
    | .ok () pen => runSteps steps (visited + 1) pen
    | .error e _ => .error e
  | .run (within m i) :: steps, visited, pen =>
    runSteps (.run i :: .restore pen.transform :: steps) (visited + 1) { pen with transform := m }
  | .run (seq a b) :: steps, visited, pen =>
    runSteps (.run a :: .run b :: steps) (visited + 1) pen
termination_by steps => steps.foldr (fun step n => step.cost + n) 0
decreasing_by all_goals simp [Step.cost, nodeCount]; try omega

end Instruction

/-- An instruction that was run to its end: the pen that ran it, and the number of nodes visited. -/
structure Compilation where
  pen : Pen
  visited : Nat

namespace Compilation

def path (c : Compilation) : Path := c.pen.build

def messages (c : Compilation) : List Message :=
  c.pen.messages ++ [.pathConstructed c.path.figureCount c.visited]

end Compilation

namespace Instruction

/-- Runs an instruction with a new pen. -/
def compile (i : Instruction) : Except GeometryError Compilation :=
  (runSteps [.run i] 0 {}).map fun (pen, visited) => { pen, visited }

/-- The path that an instruction draws. -/
def construct (i : Instruction) : Except GeometryError Path := i.compile.map Compilation.path

end Instruction

end VectorScene
