import VectorScene.Scene.Basic

/-!
# Equality of scenes

Two scenes are equal if they are one node, or if they are of one kind, with equal contents and equal
children. A shared node so equals itself even where it holds a NaN. The pairs that are still to be
compared are kept on a stack.
-/

namespace VectorScene.Scene

/-- Whether the members of every pair are equal. -/
def allEqual : List (Scene × Scene) → Bool
  | [] => true
  | (a, b) :: rest =>
    if a.sameNode b then allEqual rest
    else
      match a, b with
      | item _ i, item _ j => i == j && allEqual rest
      | union _ a b, union _ c d => allEqual ((a, c) :: (b, d) :: rest)
      | transformed _ m s, transformed _ n t => m == n && allEqual ((s, t) :: rest)
      | _, _ => false
termination_by pairs => pairs.foldr (fun pair n => pair.1.nodeCount + n) 0
decreasing_by
  all_goals simp [nodeCount]
  · exact nodeCount_pos a
  · omega

instance : BEq Scene := ⟨fun a b => allEqual [(a, b)]⟩

end VectorScene.Scene
