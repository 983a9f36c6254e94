import VectorScene.Instruction.Copy

/-!
# Copies of instructions

A copy is correct as long as its two stacks belong together: if each task that is still to be done finds
the trees that it takes, and visits give the instruction that they visit, what comes out in the end is the
tree that is copied. `Copying.rebuilt` does the tasks in this short way, and fails where a tree is missing.
A step changes nothing in what it gives (`Copying.rebuilt_step`), so no tree is ever missing
(`Copying.Reached.operands_le`), and the tree that is left is the one that was to be copied
(`Instruction.copy_self`).
-/

namespace VectorScene.Instruction

/-- The number of finished trees that a task takes. -/
def CopyTask.operands : CopyTask → Nat
  | visit _ => 0
  | join => 2
  | wrap _ => 1

namespace Copying

/-- The finished trees that come out of a copy if each visit gives the instruction itself; `none` if a task
does not find the trees that it takes. -/
def rebuilt : List CopyTask → List Instruction → Option (List Instruction)
  | [], done => some done
  | .visit i :: tasks, done => rebuilt tasks (i :: done)
  | .join :: tasks, second :: first :: done => rebuilt tasks (seq first second :: done)
  | .wrap m :: tasks, nested :: done => rebuilt tasks (within m nested :: done)
  | _, _ => none

theorem operands_le_of_rebuilt {task : CopyTask} {tasks : List CopyTask} {done trees : List Instruction}
    (h : rebuilt (task :: tasks) done = some trees) : task.operands ≤ done.length := by
  cases task with
  | visit i => exact Nat.zero_le _
  | join =>
    match done with
    | [] => cases h
    | [_] => cases h
    | _ :: _ :: done => exact Nat.le_add_left 2 done.length
  | wrap m =>
    cases done with
    | nil => cases h
    | cons nested done => exact Nat.le_add_left 1 done.length

/-- A step does not change what comes out. -/
theorem rebuilt_step {c c' : Copying} (hstep : c.step? = some c') {trees : List Instruction}
    (h : rebuilt c.tasks c.done = some trees) : rebuilt c'.tasks c'.done = some trees := by
  obtain ⟨tasks, done⟩ := c
  cases tasks with
  | nil => cases hstep
  | cons task tasks =>
    cases task with
    | visit i => cases i <;> cases hstep <;> exact h
    | join =>
      match done with
      | [] => cases h
      | [_] => cases h
      | second :: first :: done =>
        cases hstep
        exact h
    | wrap m =>
      cases done with
      | nil => cases h
      | cons nested done =>
        cases hstep
        exact h

/-- Only a copy without tasks has no next step. -/
theorem tasks_of_step_eq_none {c : Copying} (h : c.step? = none) : c.tasks = [] := by
  obtain ⟨tasks, done⟩ := c
  cases tasks with
  | nil => rfl
  | cons task tasks =>
    cases task with
    | visit i => cases i <;> cases h
    | join => cases h
    | wrap m => cases h

/-- What a copy of an instruction comes by: the start, and whatever a step leads to. -/
inductive Reached (i : Instruction) : Copying → Prop where
  | start : Reached i (.start i)
  | step {c c' : Copying} : Reached i c → c.step? = some c' → Reached i c'

namespace Reached

variable {i : Instruction} {c : Copying}

theorem rebuilt (h : c.Reached i) : rebuilt c.tasks c.done = some [i] := by
  induction h with
  | start => rfl
  | step _ hstep ih => exact rebuilt_step hstep ih

/-- Each task finds the trees that it takes. -/
theorem operands_le (h : c.Reached i) {task : CopyTask} {tasks : List CopyTask}
    (htasks : c.tasks = task :: tasks) : task.operands ≤ c.done.length := by
  have hrebuilt := h.rebuilt
  rw [htasks] at hrebuilt
  exact operands_le_of_rebuilt hrebuilt

/-- In the end there is one tree, and it is the one that was to be copied. -/
theorem done_eq (h : c.Reached i) (htasks : c.tasks = []) : c.done = [i] := by
  have hrebuilt := h.rebuilt
  rw [htasks] at hrebuilt
  exact Option.some.inj hrebuilt

theorem finish_eq (h : c.Reached i) : c.finish = [i] := by
  fun_induction finish c with
  | case1 c hstep => exact h.done_eq (tasks_of_step_eq_none hstep)
  | case2 c c' hstep ih => exact ih (h.step hstep)

end Reached

/-- What is left over to be built at once has no parts. -/
theorem leaf_of_undertake {c : Copying} {task : CopyTask} {leaf : Instruction}
    (h : (c.undertake task).2 = some leaf) :
    (∀ m i, leaf ≠ within m i) ∧ ∀ a b, leaf ≠ seq a b := by
  cases task with
  | visit i =>
    cases i <;> cases h
    · exact ⟨nofun, nofun⟩
    · exact ⟨nofun, nofun⟩
  | join => cases h
  | wrap m => cases h

end Copying

theorem copy_self (i : Instruction) : i.copy = i := by
  rw [copy, Copying.Reached.start.finish_eq]
  rfl

/-- A copy is the instruction itself. On the way, no task lacks a tree that it takes, and no instruction
that has parts is built as if it had none; in the end there is one finished tree. -/
theorem copy_eq (i : Instruction) :
    i.copy = i ∧
    (∀ c task tasks, Copying.Reached i c → c.tasks = task :: tasks →
      task.operands ≤ c.done.length ∧
      ∀ leaf, (({ c with tasks } : Copying).undertake task).2 = some leaf →
        (∀ m j, leaf ≠ within m j) ∧ ∀ a b, leaf ≠ seq a b) ∧
    (∀ c, Copying.Reached i c → c.tasks = [] → c.done = [i]) ∧
    (Copying.start i).finish = [i] :=
  ⟨i.copy_self, fun _ _ _ h htasks => ⟨h.operands_le htasks, fun _ => Copying.leaf_of_undertake⟩,
    fun _ h => h.done_eq, Copying.Reached.start.finish_eq⟩

/-- A frame and a point that are not numbers, before two empty operands. -/
def ragged : Instruction :=
  seq (within ⟨0 / 0, 0, 0, 1, 0, 0⟩ (act (.moveTo ⟨0 / 0, 1⟩))) (seq empty empty)

theorem copy_ragged :
    ragged.copy = ragged ∧
    (∃ c, Copying.Reached ragged c ∧ c.tasks = [.join, .join] ∧
      CopyTask.join.operands ≤ c.done.length) ∧
    ∃ c, Copying.Reached ragged c ∧ c.tasks = [] ∧ c.done = [ragged] := by
  obtain ⟨hcopy, htasks, hend, -⟩ := copy_eq ragged
  have hjoins : Copying.Reached ragged ⟨[.join, .join],
      [empty, empty, within ⟨0 / 0, 0, 0, 1, 0, 0⟩ (act (.moveTo ⟨0 / 0, 1⟩))]⟩ :=
    .step (.step (.step (.step (.step (.step (.step .start rfl) rfl) rfl) rfl) rfl) rfl) rfl
  have hdone : Copying.Reached ragged ⟨[], [ragged]⟩ := .step (.step hjoins rfl) rfl
  exact ⟨hcopy, ⟨_, hjoins, rfl, (htasks _ _ _ hjoins rfl).1⟩, _, hdone, rfl, hend _ hdone rfl⟩

end VectorScene.Instruction
