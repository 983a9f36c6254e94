import Mathlib.Data.List.Forall2
import VectorScene.Path.Basic
import VectorScene.Arc
import VectorScene.Proofs.Scalar

/-!
# Equality of what is made of numbers

`==` compares what is made of numbers number by number: two values are equal if they are of one shape and
each number of the one equals the number in the same place of the other. A type for which this holds is
`Numeric`. On such a type `==` is symmetric and transitive (`Numeric.beq_symm`, `Numeric.beq_trans`), and a
value equals itself if and only if none of its numbers is NaN (`Numeric.beq_self_iff`).
-/

namespace VectorScene

theorem Scalar.beq_self_iff {x : Float32} : x == x ↔ x.isNaN = false := by
  have hnan : x.isNaN = false ↔ x.toModel.unpack ≠ .notANumber := by
    show x.toModel.unpack.isNaN = false ↔ _
    cases x.toModel.unpack with
    | notANumber => exact iff_of_false nofun fun h => h rfl
    | infinity s => exact iff_of_true rfl nofun
    | zero s => exact iff_of_true rfl nofun
    | finite s m e hm => exact iff_of_true rfl nofun
  rw [hnan, beq_iff]
  constructor
  · rintro (⟨-, h⟩ | ⟨s, t, h, -⟩)
    · exact h
    · rw [h]
      nofun
  · exact fun h => .inl ⟨rfl, h⟩

/-- Lists of numbers that are equal place by place. -/
def EqualNumbers (xs ys : List Float32) : Prop := List.Forall₂ (fun x y => x == y) xs ys

namespace EqualNumbers

variable {xs ys zs xs' ys' : List Float32}

theorem symm (h : EqualNumbers xs ys) : EqualNumbers ys xs :=
  List.Forall₂.flip (h.imp fun _ _ => Scalar.beq_symm)

theorem trans (h : EqualNumbers xs ys) (h' : EqualNumbers ys zs) : EqualNumbers xs zs := by
  induction h generalizing zs with
  | nil => exact h'
  | cons hx _ ih =>
    obtain ⟨z, zs, hz, hzs, rfl⟩ := List.forall₂_cons_left_iff.mp h'
    exact .cons (Scalar.beq_trans hx hz) (ih hzs)

theorem self_iff : EqualNumbers xs xs ↔ ∀ x ∈ xs, x.isNaN = false := by
  simp only [EqualNumbers, List.forall₂_same, Scalar.beq_self_iff]

theorem append_iff (hlength : xs.length = ys.length) :
    EqualNumbers (xs ++ xs') (ys ++ ys') ↔ EqualNumbers xs ys ∧ EqualNumbers xs' ys' := by
  constructor
  · intro h
    have htake := List.forall₂_take_append _ _ _ h
    have hdrop := List.forall₂_drop_append _ _ _ h
    rw [List.take_left' hlength] at htake
    rw [List.drop_left' hlength] at hdrop
    exact ⟨htake, hdrop⟩
  · rintro ⟨h, h'⟩
    exact List.rel_append h h'

/-- Two parts are compared one after the other, if the first ones have as many numbers where they have one
shape. -/
theorem both_iff {p q : Prop} (hlength : p → xs.length = ys.length) :
    ((p ∧ EqualNumbers xs ys) ∧ q ∧ EqualNumbers xs' ys') ↔
      (p ∧ q) ∧ EqualNumbers (xs ++ xs') (ys ++ ys') := by
  constructor
  · rintro ⟨⟨hp, h⟩, hq, h'⟩
    exact ⟨⟨hp, hq⟩, (append_iff (hlength hp)).mpr ⟨h, h'⟩⟩
  · rintro ⟨⟨hp, hq⟩, happend⟩
    obtain ⟨h, h'⟩ := (append_iff (hlength hp)).mp happend
    exact ⟨⟨hp, h⟩, hq, h'⟩

end EqualNumbers

/-- A type of values that are compared number by number. -/
class Numeric (α : Type) [BEq α] where
  /-- The numbers of a value, in the order in which they are written. -/
  numbers : α → List Float32
  /-- The value with zero for each of its numbers. -/
  shape : α → α
  length_numbers_shape (x : α) : (numbers (shape x)).length = (numbers x).length
  beq_iff {x y : α} : x == y ↔ shape x = shape y ∧ EqualNumbers (numbers x) (numbers y)

namespace Numeric

section Laws

variable {α : Type} [BEq α] [Numeric α]

theorem length_numbers {x y : α} (h : shape x = shape y) :
    (numbers x).length = (numbers y).length := by
  rw [← length_numbers_shape x, h, length_numbers_shape]

theorem beq_symm {x y : α} (h : x == y) : y == x := by
  obtain ⟨hshape, hnumbers⟩ := beq_iff.mp h
  exact beq_iff.mpr ⟨hshape.symm, hnumbers.symm⟩

theorem beq_trans {x y z : α} (h : x == y) (h' : y == z) : x == z := by
  obtain ⟨hshape, hnumbers⟩ := beq_iff.mp h
  obtain ⟨hshape', hnumbers'⟩ := beq_iff.mp h'
  exact beq_iff.mpr ⟨hshape.trans hshape', hnumbers.trans hnumbers'⟩

/-- A value equals itself if none of its numbers is NaN, and only then. -/
theorem beq_self_iff {x : α} : x == x ↔ ∀ n ∈ numbers x, n.isNaN = false := by
  rw [beq_iff, ← EqualNumbers.self_iff]
  exact and_iff_right rfl

/-- The shapes of two values may as well be compared where both are part of a larger value. -/
theorem beq_iff_of_injective {β : Type} {wrap : α → β} (hwrap : wrap.Injective) (x y : α) :
    x == y ↔ wrap (shape x) = wrap (shape y) ∧ EqualNumbers (numbers x) (numbers y) := by
  rw [beq_iff, hwrap.eq_iff]

end Laws

/-! ## Numbers and lists -/

instance : Numeric Float32 where
  numbers x := [x]
  shape _ := 0
  length_numbers_shape _ := rfl
  beq_iff := by simp [EqualNumbers]

section List

variable {α : Type} [BEq α] [Numeric α]

theorem length_flatMap_numbers_shape (xs : List α) :
    ((xs.map shape).flatMap numbers).length = (xs.flatMap numbers).length := by
  induction xs with
  | nil => rfl
  | cons x xs ih =>
    rw [List.map_cons, List.flatMap_cons, List.flatMap_cons, List.length_append, List.length_append,
      length_numbers_shape, ih]

theorem list_beq_iff {xs ys : List α} :
    xs == ys ↔ xs.map shape = ys.map shape ∧ EqualNumbers (xs.flatMap numbers) (ys.flatMap numbers) := by
  induction xs generalizing ys with
  | nil =>
    cases ys with
    | nil => exact iff_of_true rfl ⟨rfl, .nil⟩
    | cons y ys => exact iff_of_false nofun nofun
  | cons x xs ih =>
    cases ys with
    | nil => exact iff_of_false nofun nofun
    | cons y ys =>
      rw [List.cons_beq_cons, Bool.and_eq_true, beq_iff, ih, EqualNumbers.both_iff length_numbers,
        List.map_cons, List.map_cons, List.cons.injEq, List.flatMap_cons, List.flatMap_cons]

instance : Numeric (List α) where
  numbers xs := xs.flatMap numbers
  shape xs := xs.map shape
  length_numbers_shape := length_flatMap_numbers_shape
  beq_iff := list_beq_iff

end List

/-! ## Geometry -/

instance : Numeric Point where
  numbers p := [p.x, p.y]
  shape _ := Point.origin
  length_numbers_shape _ := rfl
  beq_iff := by simp [EqualNumbers, BEq.beq, instBEqPoint.beq]

instance : Numeric Affine where
  numbers m := [m.m11, m.m12, m.m21, m.m22, m.m31, m.m32]
  shape _ := ⟨0, 0, 0, 0, 0, 0⟩
  length_numbers_shape _ := rfl
  beq_iff := by simp [EqualNumbers, BEq.beq, instBEqAffine.beq]

instance : Numeric Arc where
  numbers a :=
    [a.center.x, a.center.y, a.radii.x, a.radii.y, a.xRotation, a.startAngle, a.sweepAngle]
  shape _ := ⟨Point.origin, Point.origin, 0, 0, 0⟩
  length_numbers_shape _ := rfl
  beq_iff := by simp [EqualNumbers, BEq.beq, instBEqArc.beq, instBEqPoint.beq, and_assoc]

instance : Numeric Segment where
  numbers s := s.points.flatMap numbers
  shape s := s.map fun _ => Point.origin
  length_numbers_shape s := by cases s <;> rfl
  beq_iff {s t} := by
    cases s <;> cases t <;>
      simp [EqualNumbers, BEq.beq, instBEqSegment.beq, instBEqPoint.beq, Segment.map, Segment.points,
        numbers, and_assoc]

instance : Numeric Command where
  numbers
    | .moveTo p => numbers p
    | .draw s => numbers s
    | .close => []
  shape
    | .moveTo p => .moveTo (shape p)
    | .draw s => .draw (shape s)
    | .close => .close
  length_numbers_shape c := by
    cases c with
    | moveTo p => rfl
    | draw s => exact length_numbers_shape s
    | close => rfl
  beq_iff {c d} := by
    cases c <;> cases d
    case moveTo.moveTo p q => exact beq_iff_of_injective (fun _ _ => Command.moveTo.inj) p q
    case draw.draw s t => exact beq_iff_of_injective (fun _ _ => Command.draw.inj) s t
    case close.close => exact iff_of_true rfl ⟨rfl, .nil⟩
    all_goals exact iff_of_false nofun fun h => nomatch h.1

instance : Numeric Path where
  numbers p := numbers p.commands
  shape p := ⟨shape p.commands⟩
  length_numbers_shape p := length_numbers_shape p.commands
  beq_iff {p q} := beq_iff_of_injective (fun _ _ => Path.mk.inj) p.commands q.commands

end Numeric

end VectorScene
