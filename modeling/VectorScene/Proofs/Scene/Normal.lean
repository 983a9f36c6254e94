import VectorScene.Proofs.Scalar
import VectorScene.Scene.Basic

/-!
# Scenes in normal form

A scene is normal if no union in it has an empty operand and no transform in it is the exact
identity, is applied to the empty scene, or is applied to another transform. `ofItem`, `join`,
`transform` and `ofList` keep scenes normal, and so does taking a scene apart (`Normal.child`); a
transform that is composed with one already there is not the exact identity, because it is then near
the identity and left out (`isNearIdentity_of_beq`).

A normal scene paints nothing only if it is empty (`Normal.isEmpty_iff`), and `Scene.rebuild`, which
makes the whole tree anew from its items, gives a tree that differs in its stamps only
(`Normal.rebuild`).
-/

namespace VectorScene

/-- The exact identity is within the tolerances of the identity. -/
theorem Affine.isNearIdentity_of_beq {m : Affine} (h : m == Affine.identity) : m.isNearIdentity := by
  obtain ⟨m11, m12, m21, m22, m31, m32⟩ := m
  have h : (m11 == 1 && (m12 == 0 && (m21 == 0 && (m22 == 1 && (m31 == 0 && m32 == 0))))) = true := h
  simp only [Bool.and_eq_true] at h
  obtain ⟨h11, h12, h21, h22, h31, h32⟩ := h
  simp only [isNearIdentity, Scalar.sub_one_of_beq_one h11, Scalar.sub_one_of_beq_one h22,
    Scalar.abs_of_beq_zero h12, Scalar.abs_of_beq_zero h21, Scalar.abs_of_beq_zero h31,
    Scalar.abs_of_beq_zero h32]
  decide +kernel

namespace Scene

/-! ## What the operations do -/

theorem run_join (a b : Scene) (stamp : Nat) :
    (join a b).run stamp =
      if a = empty then (b, stamp)
      else if b = empty then (a, stamp)
      else (union stamp a b, stamp + 1) := by
  cases a <;> cases b <;> rfl

/-- Whether the root is a transform. -/
def isTransformed : Scene → Bool
  | transformed _ _ _ => true
  | _ => false

theorem run_transform_identity {m : Affine} (hm : m == Affine.identity) (s : Scene) (stamp : Nat) :
    (s.transform m).run stamp = (s, stamp) := by
  unfold transform
  rw [if_pos hm]; rfl

theorem run_transform_empty (m : Affine) (stamp : Nat) :
    (empty.transform m).run stamp = (empty, stamp) := by
  unfold transform
  split <;> rfl

/-- The transform that is there and the new one become one transform. -/
theorem run_transform_transformed {m : Affine} (hm : (m == Affine.identity) = false) (c : Affine)
    (inner : Scene) (old stamp : Nat) :
    ((transformed old c inner).transform m).run stamp =
      if (Affine.compose m c).isNearIdentity then (inner, stamp)
      else (transformed stamp (Affine.compose m c) inner, stamp + 1) := by
  unfold transform
  simp only [hm, Bool.false_eq_true, if_false]
  split <;> rfl

theorem run_transform {m : Affine} (hm : (m == Affine.identity) = false) {s : Scene}
    (hs : s ≠ empty) (ht : s.isTransformed = false) (stamp : Nat) :
    (s.transform m).run stamp = (transformed stamp m s, stamp + 1) := by
  unfold transform
  simp only [hm, Bool.false_eq_true, if_false]
  cases s with
  | empty => exact absurd rfl hs
  | item _ i => rfl
  | union _ a b => rfl
  | transformed _ c inner => cases ht

/-! ## Normal scenes -/

/-- No union has an empty operand, and no transform is the exact identity, is applied to the empty
scene or is applied to a transform. -/
def Normal : Scene → Prop
  | empty => True
  | item _ _ => True
  | union _ a b => a ≠ empty ∧ b ≠ empty ∧ a.Normal ∧ b.Normal
  | transformed _ m s =>
    (m == Affine.identity) = false ∧ s ≠ empty ∧ s.isTransformed = false ∧ s.Normal

theorem Normal.ofItem (i : Item) (stamp : Nat) : ((Scene.ofItem i).run stamp).1.Normal := trivial

theorem Normal.join {a b : Scene} (ha : a.Normal) (hb : b.Normal) (stamp : Nat) :
    ((Scene.join a b).run stamp).1.Normal := by
  rw [run_join]
  split
  · exact hb
  · split
    · exact ha
    · exact ⟨‹_›, ‹_›, ha, hb⟩

theorem Normal.transform {s : Scene} (hs : s.Normal) (m : Affine) (stamp : Nat) :
    ((s.transform m).run stamp).1.Normal := by
  cases hm : m == Affine.identity with
  | true => rwa [run_transform_identity hm]
  | false =>
    cases s with
    | empty => rwa [run_transform_empty]
    | item old i => rw [run_transform hm (s := item old i) nofun rfl]; exact ⟨hm, nofun, rfl, hs⟩
    | union old a b =>
      rw [run_transform hm (s := union old a b) nofun rfl]; exact ⟨hm, nofun, rfl, hs⟩
    | transformed _ c inner =>
      obtain ⟨-, hne, ht, hinner⟩ := hs
      rw [run_transform_transformed hm]
      split
      · exact hinner
      · rename_i hnear
        refine ⟨?_, hne, ht, hinner⟩
        rw [Bool.eq_false_iff]
        exact fun h => hnear (Affine.isNearIdentity_of_beq h)

theorem Normal.foldlM_join {scenes : List Scene} (h : ∀ s ∈ scenes, s.Normal) {acc : Scene}
    (hacc : acc.Normal) (stamp : Nat) :
    ((scenes.foldlM Scene.join acc : Build Scene).run stamp).1.Normal := by
  induction scenes generalizing acc stamp with
  | nil => exact hacc
  | cons s scenes ih =>
    obtain ⟨hs, h⟩ := List.forall_mem_cons.mp h
    exact ih h (hacc.join hs stamp) _

theorem Normal.ofList {scenes : List Scene} (h : ∀ s ∈ scenes, s.Normal) (stamp : Nat) :
    ((Scene.ofList scenes).run stamp).1.Normal :=
  Normal.foldlM_join h (show Normal empty from trivial) stamp

theorem Normal.child {s : Scene} (hs : s.Normal) : ∀ c ∈ s.children, c.Normal := by
  cases s with
  | empty => nofun
  | item _ i => nofun
  | union _ a b => simpa [children] using ⟨hs.2.2.1, hs.2.2.2⟩
  | transformed _ m s => simpa [children] using hs.2.2.2

/-! ## Counting -/

/-- The items of a scene from left to right. -/
def items : Scene → List Item
  | empty => []
  | item _ i => [i]
  | union _ a b => a.items ++ b.items
  | transformed _ _ s => s.items

theorem countItems_cons (s : Scene) (rest : List Scene) (n : Nat) :
    countItems (s :: rest) n = countItems rest (n + s.items.length) := by
  induction s generalizing rest n with
  | empty => rw [countItems]; rfl
  | item _ i => rw [countItems]; rfl
  | union _ a b iha ihb =>
    rw [countItems, iha, ihb, items, List.length_append, Nat.add_assoc]
  | transformed _ m s ih => rw [countItems, ih, items]

theorem itemCount_eq (s : Scene) : s.itemCount = s.items.length := by
  rw [itemCount, countItems_cons, countItems, Nat.zero_add]

theorem Normal.items_ne_nil {s : Scene} (hs : s.Normal) (hne : s ≠ empty) : s.items ≠ [] := by
  induction s with
  | empty => exact absurd rfl hne
  | item _ i => nofun
  | union _ a b iha ihb => exact List.append_ne_nil_of_left_ne_nil (iha hs.2.2.1 hs.1) _
  | transformed _ m s ih => exact ih hs.2.2.2 hs.2.1

theorem Normal.isEmpty_iff {s : Scene} (hs : s.Normal) : s.isEmpty ↔ s.itemCount = 0 := by
  rw [itemCount_eq, List.length_eq_zero_iff]
  constructor
  · intro h
    cases s <;> first | rfl | cases h
  · intro h
    by_cases hne : s = empty
    · subst hne; rfl
    · exact absurd h (hs.items_ne_nil hne)

/-! ## Making a scene anew -/

/-- The same tree with all stamps alike. -/
def unstamped : Scene → Scene
  | empty => empty
  | item _ i => item 0 i
  | union _ a b => union 0 a.unstamped b.unstamped
  | transformed _ m s => transformed 0 m s.unstamped

/-- The tree made anew from its items. -/
def rebuild : Scene → Build Scene
  | empty => return empty
  | item stamp i => return item stamp i
  | union _ a b => do join (← a.rebuild) (← b.rebuild)
  | transformed _ m s => do (← s.rebuild).transform m

theorem ne_empty_of_unstamped_eq {s t : Scene} (h : s.unstamped = t.unstamped) (ht : t ≠ empty) :
    s ≠ empty := by
  rintro rfl
  cases t with
  | empty => exact ht rfl
  | _ => cases h

theorem isTransformed_unstamped (s : Scene) : s.unstamped.isTransformed = s.isTransformed := by
  cases s <;> rfl

theorem run_rebuild_union (old stamp : Nat) (a b : Scene) :
    (rebuild (union old a b)).run stamp =
      (join (a.rebuild.run stamp).1 (b.rebuild.run (a.rebuild.run stamp).2).1).run
        (b.rebuild.run (a.rebuild.run stamp).2).2 := rfl

theorem run_rebuild_transformed (old stamp : Nat) (m : Affine) (s : Scene) :
    (rebuild (transformed old m s)).run stamp =
      ((s.rebuild.run stamp).1.transform m).run (s.rebuild.run stamp).2 := rfl

theorem Normal.rebuild {s : Scene} (hs : s.Normal) (stamp : Nat) :
    (s.rebuild.run stamp).1.unstamped = s.unstamped := by
  induction s generalizing stamp with
  | empty => rfl
  | item _ i => rfl
  | union _ a b iha ihb =>
    obtain ⟨hane, hbne, ha, hb⟩ := hs
    have ea := iha ha stamp
    have eb := ihb hb (a.rebuild.run stamp).2
    rw [run_rebuild_union, run_join, if_neg (ne_empty_of_unstamped_eq ea hane),
      if_neg (ne_empty_of_unstamped_eq eb hbne)]
    simp only [unstamped, ea, eb]
  | transformed _ m s ih =>
    obtain ⟨hm, hne, ht, hs⟩ := hs
    have e := ih hs stamp
    have nt : (s.rebuild.run stamp).1.isTransformed = false := by
      rw [← isTransformed_unstamped, e, isTransformed_unstamped, ht]
    rw [run_rebuild_transformed, run_transform hm (ne_empty_of_unstamped_eq e hne) nt]
    simp only [unstamped, e]

end Scene

end VectorScene
