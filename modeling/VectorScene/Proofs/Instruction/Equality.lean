import VectorScene.Instruction.Equality
import VectorScene.Proofs.Instruction.Copying
import VectorScene.Proofs.Numeric

/-!
# Equality of instructions, tree by tree

`Instruction.equal` compares two trees by recursion on both. The comparison with a stack of pairs does the
same for the pair on top, whatever lies below it (`Instruction.allEqual_cons`), so `==` is that recursion
(`Instruction.beq_eq_equal`). It finds out whether two trees have one shape and equal numbers
(`Instruction.equal_iff`): an instruction is `Numeric`.
-/

namespace VectorScene

open Numeric

instance : Numeric PenAction where
  numbers
    | .moveTo p => numbers p
    | .draw s => numbers s
    | .arcTo a => numbers a
    | .startFigure => []
    | .closeFigure => []
    | .closeAllFigures => []
    | .setTransform m => numbers m
  shape
    | .moveTo p => .moveTo (shape p)
    | .draw s => .draw (shape s)
    | .arcTo a => .arcTo (shape a)
    | .startFigure => .startFigure
    | .closeFigure => .closeFigure
    | .closeAllFigures => .closeAllFigures
    | .setTransform m => .setTransform (shape m)
  length_numbers_shape a := by
    cases a with
    | draw s => exact length_numbers_shape s
    | _ => rfl
  beq_iff {a b} := by
    cases a <;> cases b
    case moveTo.moveTo p q => exact beq_iff_of_injective (fun _ _ => PenAction.moveTo.inj) p q
    case draw.draw s t => exact beq_iff_of_injective (fun _ _ => PenAction.draw.inj) s t
    case arcTo.arcTo a b => exact beq_iff_of_injective (fun _ _ => PenAction.arcTo.inj) a b
    case setTransform.setTransform m n =>
      exact beq_iff_of_injective (fun _ _ => PenAction.setTransform.inj) m n
    case startFigure.startFigure => exact iff_of_true rfl ⟨rfl, .nil⟩
    case closeFigure.closeFigure => exact iff_of_true rfl ⟨rfl, .nil⟩
    case closeAllFigures.closeAllFigures => exact iff_of_true rfl ⟨rfl, .nil⟩
    all_goals exact iff_of_false nofun fun h => nomatch h.1

namespace Instruction

/-- Whether two trees have the same nodes in the same places, with equal numbers. -/
def equal : Instruction → Instruction → Bool
  | empty, empty => true
  | act a, act b => a == b
  | within m a, within n b => m == n && a.equal b
  | seq a b, seq c d => a.equal c && b.equal d
  | _, _ => false

/-- The pair on top is compared as a whole before the rest is. -/
theorem allEqual_cons (a b : Instruction) (rest : List (Instruction × Instruction)) :
    allEqual ((a, b) :: rest) = (a.equal b && allEqual rest) := by
  induction a generalizing b rest with
  | empty => cases b <;> simp [allEqual, equal]
  | act a => cases b <;> simp [allEqual, equal]
  | within m a ih => cases b <;> simp [allEqual, equal, ih, Bool.and_assoc]
  | seq a b iha ihb => cases b <;> simp [allEqual, equal, iha, ihb, Bool.and_assoc]

theorem beq_eq_equal (a b : Instruction) : (a == b) = a.equal b := by
  show allEqual [(a, b)] = _
  rw [allEqual_cons, allEqual, Bool.and_true]

/-- All numbers of the tree: coordinates, angles, and coefficients of frames. -/
def numbers : Instruction → List Float32
  | empty => []
  | act a => Numeric.numbers a
  | within m i => Numeric.numbers m ++ i.numbers
  | seq a b => a.numbers ++ b.numbers

/-- The tree with zero for each of its numbers. -/
def shape : Instruction → Instruction
  | empty => empty
  | act a => act (Numeric.shape a)
  | within m i => within (Numeric.shape m) i.shape
  | seq a b => seq a.shape b.shape

theorem length_numbers_shape (a : Instruction) : a.shape.numbers.length = a.numbers.length := by
  induction a with
  | empty => rfl
  | act a => exact Numeric.length_numbers_shape a
  | within m a ih =>
    rw [shape, numbers, numbers, List.length_append, List.length_append, ih,
      Numeric.length_numbers_shape]
  | seq a b iha ihb => rw [shape, numbers, numbers, List.length_append, List.length_append, iha, ihb]

theorem equal_iff {a b : Instruction} :
    a.equal b ↔ a.shape = b.shape ∧ EqualNumbers a.numbers b.numbers := by
  induction a generalizing b with
  | empty =>
    cases b
    case empty => exact iff_of_true rfl ⟨rfl, .nil⟩
    all_goals exact iff_of_false nofun fun h => nomatch h.1
  | act a =>
    cases b
    case act b => rw [equal, shape, shape, act.injEq, beq_iff, numbers, numbers]
    all_goals exact iff_of_false nofun fun h => nomatch h.1
  | within m a ih =>
    cases b
    case within n b =>
      rw [equal, shape, shape, within.injEq, numbers, numbers, Bool.and_eq_true, beq_iff, ih,
        EqualNumbers.both_iff length_numbers]
    all_goals exact iff_of_false nofun fun h => nomatch h.1
  | seq a₁ a₂ ih₁ ih₂ =>
    cases b
    case seq b₁ b₂ =>
      have hlength : a₁.shape = b₁.shape → a₁.numbers.length = b₁.numbers.length := fun h => by
        rw [← length_numbers_shape a₁, h, length_numbers_shape]
      rw [equal, shape, shape, seq.injEq, numbers, numbers, Bool.and_eq_true, ih₁, ih₂,
        EqualNumbers.both_iff hlength]
    all_goals exact iff_of_false nofun fun h => nomatch h.1

instance : Numeric Instruction where
  numbers := numbers
  shape := shape
  length_numbers_shape := length_numbers_shape
  beq_iff {a b} := by rw [beq_eq_equal, equal_iff]

/-- `==` compares two trees as the recursion on both does: they are equal if they have one shape, and all
numbers are equal in turn. So `==` is symmetric and transitive, and a tree equals itself, or its copy, if
and only if it has no NaN anywhere. -/
theorem beq_laws (a b c : Instruction) :
    (a == b) = a.equal b ∧
    (a == b ↔ a.shape = b.shape ∧ EqualNumbers a.numbers b.numbers) ∧
    (a == b → b == a) ∧
    (a == b → b == c → a == c) ∧
    (a == a ↔ ∀ x ∈ a.numbers, x.isNaN = false) ∧
    (a == a.copy) = (a == a) :=
  ⟨beq_eq_equal a b, beq_iff, beq_symm, beq_trans, beq_self_iff, by rw [copy_self]⟩

theorem beq_laws_ragged :
    seq (lineTo ⟨0, 1⟩) empty == seq (lineTo ⟨-0, 1⟩) empty ∧
    seq (lineTo ⟨-0, 1⟩) empty == seq (lineTo ⟨0, 1⟩) empty ∧
    (∃ x ∈ ragged.numbers, x.isNaN) ∧ ¬ ragged == ragged.copy := by
  obtain ⟨hequal, -, hsymm, -⟩ :=
    beq_laws (seq (lineTo ⟨0, 1⟩) empty) (seq (lineTo ⟨-0, 1⟩) empty) ragged
  obtain ⟨-, -, -, -, hself, hcopy⟩ := beq_laws ragged ragged ragged
  have hzeros : seq (lineTo ⟨0, 1⟩) empty == seq (lineTo ⟨-0, 1⟩) empty := by
    rw [hequal]
    decide +kernel
  have hmem : (0 / 0 : Float32) ∈ ragged.numbers := List.mem_cons_self
  have hnan : (0 / 0 : Float32).isNaN := by decide +kernel
  refine ⟨hzeros, hsymm hzeros, ⟨_, hmem, hnan⟩, fun h => ?_⟩
  rw [hcopy, hself] at h
  rw [h _ hmem] at hnan
  cases hnan

end Instruction

end VectorScene
