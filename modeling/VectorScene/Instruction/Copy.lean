import VectorScene.Instruction.Basic

/-!
# Copying an instruction

`Instruction.copy` builds a tree anew, node by node. It keeps the tasks that are still to be done on one
stack and the trees that it has finished on another, so its depth is not bounded by that of the tree; a
node with children is built when the trees of its children lie on top of the second. A `Copying` is the
two stacks, and `Copying.step?` does the next task.
-/

namespace VectorScene.Instruction

/-- What is still to be done for a copy. -/
inductive CopyTask where
  | visit (instruction : Instruction)
  /-- Takes two finished trees and puts them in sequence. -/
  | join
  /-- Takes a finished tree and puts it within a frame. -/
  | wrap (frame : Affine)

/-- The number of tasks that follow from a task, itself included. -/
def CopyTask.cost : CopyTask → Nat
  | visit i => 2 * i.nodeCount
  | join => 1
  | wrap _ => 1

/-- Takes a tree from the finished ones; there should be one, and `empty` stands in for it. -/
def takeFinished : List Instruction → Instruction × List Instruction
  | [] => (empty, [])
  | i :: rest => (i, rest)

/-- An instruction without parts, built anew. One that has parts should have been taken apart before, and
`empty` stands in for it. -/
def copyLeaf : Instruction → Instruction
  | empty => empty
  | act a => act a
  | within _ _ => empty
  | seq _ _ => empty

/-- A copy that is under way. -/
structure Copying where
  /-- What is still to be done, the next task first. -/
  tasks : List CopyTask
  /-- The trees that are finished, the last one first. -/
  done : List Instruction

namespace Copying

def start (i : Instruction) : Copying := { tasks := [.visit i], done := [] }

def cost (c : Copying) : Nat := c.tasks.foldr (fun task n => task.cost + n) 0

/-- Does a task that was taken from the stack. An instruction without parts is not built yet, but left over
for it. -/
def undertake (c : Copying) : CopyTask → Copying × Option Instruction
  | .visit (seq a b) => ({ c with tasks := .visit a :: .visit b :: .join :: c.tasks }, none)
  | .visit (within m i) => ({ c with tasks := .visit i :: .wrap m :: c.tasks }, none)
  | .join =>
    let (second, done) := takeFinished c.done
    let (first, done) := takeFinished done
    ({ c with done := seq first second :: done }, none)
  | .wrap m =>
    let (nested, done) := takeFinished c.done
    ({ c with done := within m nested :: done }, none)
  | .visit leaf => (c, some leaf)

/-- Does the next task; `none` if there is no task any more. -/
def step? (c : Copying) : Option Copying :=
  match c.tasks with
  | [] => none
  | task :: tasks =>
    match { c with tasks }.undertake task with
    | (c, none) => some c
    | (c, some leaf) => some { c with done := leaf.copyLeaf :: c.done }

theorem cost_lt_of_step {c c' : Copying} (h : c.step? = some c') : c'.cost < c.cost := by
  obtain ⟨tasks, done⟩ := c
  cases tasks with
  | nil => cases h
  | cons task tasks =>
    cases task with
    | visit i => cases i <;> cases h <;> simp [cost, CopyTask.cost, nodeCount] <;> omega
    | join => cases h; simp [cost, CopyTask.cost]
    | wrap m => cases h; simp [cost, CopyTask.cost]

/-- Does all tasks, and returns the finished trees. -/
def finish (c : Copying) : List Instruction :=
  match _h : c.step? with
  | none => c.done
  | some c' => c'.finish
termination_by c.cost
decreasing_by exact cost_lt_of_step _h

end Copying

/-- The same tree, built anew. -/
def copy (i : Instruction) : Instruction := (takeFinished (Copying.start i).finish).1

end VectorScene.Instruction
