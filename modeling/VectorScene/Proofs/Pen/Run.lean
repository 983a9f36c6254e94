import VectorScene.Proofs.Instruction.Compile
import VectorScene.Proofs.Pen.Placing

/-!
# Runs of a pen

A pen can be given any actions in any order, and goes on after those that fail. `Pen.attempt` is the
pen after one action and `Pen.attemptAll` the pen after a list of them.

* `Pen.attemptAll_induction`: what every mark with finite points keeps is kept by a run;
* `Pen.attemptAll_succeeding`: the actions of a run that fail could as well be left out;
* `Instruction.exists_attemptAll_of_run`: an instruction that runs to its end is a run of actions.
-/

namespace VectorScene

namespace Pen

/-- The pen after an action, which may have failed. -/
def attempt (pen : Pen) (a : PenAction) : Pen :=
  match a.perform pen with
  | .ok _ pen' => pen'
  | .error _ pen' => pen'

def attemptAll (pen : Pen) (actions : List PenAction) : Pen := actions.foldl attempt pen

/-- A new pen after some actions. -/
def after (actions : List PenAction) : Pen := attemptAll {} actions

theorem attempt_of_perform {a : PenAction} {pen pen' : Pen} (h : a.perform pen = .ok () pen') :
    pen.attempt a = pen' := by
  rw [attempt, h]

theorem attempt_of_resolve {a : PenAction} {pen : Pen} {mark : PenMark}
    (h : a.resolve pen.transform = .ok mark) : pen.attempt a = pen.marked mark := by
  rw [attempt, a.perform_eq, h]

theorem attempt_of_resolve_error {a : PenAction} {pen : Pen} {e : GeometryError}
    (h : a.resolve pen.transform = .error e) : pen.attempt a = pen := by
  rw [attempt, a.perform_eq, h]

theorem attemptAll_cons (pen : Pen) (a : PenAction) (actions : List PenAction) :
    pen.attemptAll (a :: actions) = (pen.attempt a).attemptAll actions := rfl

theorem attemptAll_append (pen : Pen) (before after : List PenAction) :
    pen.attemptAll (before ++ after) = (pen.attemptAll before).attemptAll after :=
  List.foldl_append

/-- What every mark with finite points keeps is kept by a run, also where actions fail. -/
theorem attemptAll_induction {P : Pen → Prop}
    (hmarked : ∀ pen mark, P pen → mark.Finite → P (pen.marked mark)) {pen : Pen} (h : P pen)
    (actions : List PenAction) : P (pen.attemptAll actions) := by
  induction actions generalizing pen with
  | nil => exact h
  | cons a actions ih =>
    refine ih ?_
    cases ha : a.resolve pen.transform with
    | ok mark =>
      rw [attempt_of_resolve ha]
      exact hmarked pen mark h (a.finite_of_resolve ha)
    | error e => rwa [attempt_of_resolve_error ha]

/-! ## Actions that fail -/

/-- The actions of a run that succeed, each tried on the pen that the run has reached. -/
def succeeding : List PenAction → Pen → List PenAction
  | [], _ => []
  | a :: actions, pen =>
    match a.perform pen with
    | .ok _ pen' => a :: succeeding actions pen'
    | .error _ pen' => succeeding actions pen'

/-- An action succeeds, or it fails and leaves the pen as it was. -/
theorem perform_cases (a : PenAction) (pen : Pen) :
    (∃ pen', a.perform pen = .ok () pen') ∨ ∃ e, a.perform pen = .error e pen := by
  rw [a.perform_eq]
  cases a.resolve pen.transform with
  | ok mark => exact .inl ⟨pen.marked mark, rfl⟩
  | error e => exact .inr ⟨e, rfl⟩

theorem attemptAll_of_forM {actions : List PenAction} {pen pen' : Pen}
    (h : forM actions PenAction.perform pen = .ok () pen') : pen.attemptAll actions = pen' := by
  induction actions generalizing pen with
  | nil => cases h; rfl
  | cons a actions ih =>
    obtain ⟨next, ha, h⟩ := exists_of_forM_cons h
    rw [attemptAll_cons, attempt_of_perform ha, ih h]

/-- The actions that succeed in a run succeed without the others too, and leave the same pen. -/
theorem forM_succeeding (actions : List PenAction) (pen : Pen) :
    forM (succeeding actions pen) PenAction.perform pen = .ok () (pen.attemptAll actions) := by
  induction actions generalizing pen with
  | nil => rfl
  | cons a actions ih =>
    rw [attemptAll_cons]
    obtain ⟨next, ha⟩ | ⟨e, ha⟩ := perform_cases a pen
    · simp only [succeeding, ha, attempt_of_perform ha]
      rw [forM_cons_of_ok _ ha, ih]
    · have hattempt : pen.attempt a = pen := by rw [attempt, ha]
      simp only [succeeding, ha, hattempt, ih]

theorem sublist_succeeding (actions : List PenAction) (pen : Pen) :
    (succeeding actions pen).Sublist actions := by
  induction actions generalizing pen with
  | nil => exact .slnil
  | cons a actions ih =>
    rw [succeeding]
    cases a.perform pen with
    | ok _ next => exact (ih next).cons_cons a
    | error e next => exact (ih next).cons a

/-- An action that fails changes nothing, so a run of actions leaves the pen that the run of those
that succeed in it leaves, whatever comes after, and in that run none fails. -/
theorem attemptAll_succeeding (actions : List PenAction) (pen : Pen) :
    (∀ a reached, (∃ pen', PenAction.perform a reached = .ok () pen') ∨
      ∃ e, a.perform reached = .error e reached) ∧
    (succeeding actions pen).Sublist actions ∧
    forM (succeeding actions pen) PenAction.perform pen = .ok () (pen.attemptAll actions) ∧
    ∀ later, pen.attemptAll (succeeding actions pen ++ later) = pen.attemptAll (actions ++ later) := by
  refine ⟨perform_cases, sublist_succeeding actions pen, forM_succeeding actions pen, fun later => ?_⟩
  rw [attemptAll_append, attemptAll_append, attemptAll_of_forM (forM_succeeding actions pen)]

end Pen

/-- An instruction that runs to its end is a run of actions: those of its leaves, and one to set the
transform wherever a frame is entered or left. -/
theorem Instruction.exists_attemptAll_of_run {i : Instruction} {pen pen' : Pen}
    (h : i.run pen = .ok () pen') : ∃ actions, pen' = pen.attemptAll actions := by
  induction i generalizing pen pen' with
  | empty =>
    cases h
    exact ⟨[], rfl⟩
  | act a => exact ⟨[a], (Pen.attempt_of_perform h).symm⟩
  | within m i ih =>
    obtain ⟨inner, hi, rfl⟩ := exists_of_run_within h
    obtain ⟨actions, rfl⟩ := ih hi
    refine ⟨.setTransform m :: (actions ++ [.setTransform pen.transform]), ?_⟩
    rw [← List.cons_append, Pen.attemptAll_append]
    rfl
  | seq a b iha ihb =>
    obtain ⟨middle, ha, hb⟩ := exists_of_run_seq h
    obtain ⟨actions, rfl⟩ := iha ha
    obtain ⟨actions', rfl⟩ := ihb hb
    exact ⟨actions ++ actions', (Pen.attemptAll_append pen actions actions').symm⟩

end VectorScene
