import VectorScene.Instruction.Basic

/-!
# Equality of instructions

Two instructions are equal if they have the same shape and their numbers are equal as numbers. The
comparison keeps the pairs that it has still to compare on a stack of its own, so its depth is not
bounded by that of the trees.
-/

namespace VectorScene.Instruction

/-- Whether the members of every pair are equal. -/
def allEqual : List (Instruction × Instruction) → Bool
  | [] => true
  | (empty, empty) :: rest => allEqual rest
  | (act a, act b) :: rest => a == b && allEqual rest
  | (within m a, within n b) :: rest => m == n && allEqual ((a, b) :: rest)
  | (seq a b, seq c d) :: rest => allEqual ((a, c) :: (b, d) :: rest)
  | _ => false
termination_by pairs => pairs.foldr (fun pair n => pair.1.nodeCount + n) 0
decreasing_by all_goals simp [nodeCount]; try omega

instance : BEq Instruction := ⟨fun a b => allEqual [(a, b)]⟩

end VectorScene.Instruction
