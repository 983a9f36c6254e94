import VectorScene.Path.Basic
import VectorScene.Proofs.Scalar

/-!
# Overflow

A sum or a product is finite only if both operands are. What is not finite so stays in all that is
computed from it: in a composition of transforms (`Affine.isFinite_of_compose`), in the image of a point
(`Affine.isFinite_of_apply`), and in the path that is transformed (`Path.finite_of_transformed`), of
which the exact identity, which maps nothing, is no exception.
-/

namespace VectorScene

/-! ## Numbers -/

namespace Scalar

open Float.Model

/-- Only a finite number is packed as one. -/
theorem isFinite_of_pack {u : UnpackedFloat} (h : (Float32.ofModel (.pack u)).isFinite) :
    u.isFinite := by
  cases u with
  | infinity s => cases s <;> exact absurd h (by decide)
  | notANumber => exact absurd h (by decide)
  | zero s => rfl
  | finite s m e hm => rfl

theorem isFinite_of_add {x y : Float32} (h : (x + y).isFinite) : x.isFinite ∧ y.isFinite := by
  have hsum : (UnpackedFloat.add .binary32 x.toModel.unpack y.toModel.unpack).isFinite :=
    isFinite_of_pack h
  show x.toModel.unpack.isFinite ∧ y.toModel.unpack.isFinite
  generalize x.toModel.unpack = u at hsum ⊢
  generalize y.toModel.unpack = v at hsum ⊢
  rcases u with (_ | _) | - | s | ⟨s, m, e, hm⟩ <;> rcases v with (_ | _) | - | t | ⟨t, n, f, hn⟩
  -- With an operand that is not finite, the sum evaluates to infinity or NaN.
  any_goals cases hsum
  all_goals exact ⟨rfl, rfl⟩

theorem isFinite_of_mul {x y : Float32} (h : (x * y).isFinite) : x.isFinite ∧ y.isFinite := by
  have hproduct : (UnpackedFloat.mul .binary32 x.toModel.unpack y.toModel.unpack).isFinite :=
    isFinite_of_pack h
  show x.toModel.unpack.isFinite ∧ y.toModel.unpack.isFinite
  generalize x.toModel.unpack = u at hproduct ⊢
  generalize y.toModel.unpack = v at hproduct ⊢
  rcases u with (_ | _) | - | s | ⟨s, m, e, hm⟩ <;> rcases v with (_ | _) | - | t | ⟨t, n, f, hn⟩
  any_goals cases hproduct
  all_goals exact ⟨rfl, rfl⟩

/-- A number that equals a finite one is finite. -/
theorem isFinite_of_beq {x y : Float32} (h : x == y) (hy : y.isFinite) : x.isFinite := by
  show x.toModel.unpack.isFinite
  rcases beq_iff.mp h with ⟨hxy, -⟩ | ⟨s, t, hx, -⟩
  · rw [hxy]
    exact hy
  · rw [hx]
    rfl

end Scalar

/-! ## Transforms -/

namespace Affine

/-- Whether all coefficients are finite. -/
def isFinite (m : Affine) : Bool :=
  m.m11.isFinite && m.m12.isFinite && m.m21.isFinite && m.m22.isFinite && m.m31.isFinite
    && m.m32.isFinite

theorem isFinite_iff {m : Affine} :
    m.isFinite ↔ m.m11.isFinite ∧ m.m12.isFinite ∧ m.m21.isFinite ∧ m.m22.isFinite ∧
      m.m31.isFinite ∧ m.m32.isFinite := by
  simp only [isFinite, Bool.and_eq_true, and_assoc]

theorem isFinite_of_beq_identity {m : Affine} (h : m == identity) : m.isFinite := by
  obtain ⟨m11, m12, m21, m22, m31, m32⟩ := m
  have h : (m11 == 1 && (m12 == 0 && (m21 == 0 && (m22 == 1 && (m31 == 0 && m32 == 0))))) = true := h
  simp only [Bool.and_eq_true] at h
  obtain ⟨h11, h12, h21, h22, h31, h32⟩ := h
  exact isFinite_iff.mpr ⟨Scalar.isFinite_of_beq h11 rfl, Scalar.isFinite_of_beq h12 rfl,
    Scalar.isFinite_of_beq h21 rfl, Scalar.isFinite_of_beq h22 rfl, Scalar.isFinite_of_beq h31 rfl,
    Scalar.isFinite_of_beq h32 rfl⟩

/-- A sum of two products is finite only if all factors are. -/
theorem isFinite_of_products {a b c d : Float32} (h : (a * b + c * d).isFinite) :
    (a.isFinite ∧ b.isFinite) ∧ c.isFinite ∧ d.isFinite := by
  obtain ⟨hab, hcd⟩ := Scalar.isFinite_of_add h
  exact ⟨Scalar.isFinite_of_mul hab, Scalar.isFinite_of_mul hcd⟩

/-- No coefficient that is not finite is lost in a composition. -/
theorem isFinite_of_compose {outer inner : Affine} (h : (compose outer inner).isFinite) :
    outer.isFinite ∧ inner.isFinite := by
  obtain ⟨h11, h12, h21, -, h31, h32⟩ := isFinite_iff.mp h
  obtain ⟨⟨i11, o11⟩, i12, o21⟩ := isFinite_of_products h11
  obtain ⟨⟨-, o12⟩, -, o22⟩ := isFinite_of_products h12
  obtain ⟨⟨i21, -⟩, i22, -⟩ := isFinite_of_products h21
  obtain ⟨h31, o31⟩ := Scalar.isFinite_of_add h31
  obtain ⟨⟨i31, -⟩, i32, -⟩ := isFinite_of_products h31
  obtain ⟨-, o32⟩ := Scalar.isFinite_of_add h32
  exact ⟨isFinite_iff.mpr ⟨o11, o12, o21, o22, o31, o32⟩,
    isFinite_iff.mpr ⟨i11, i12, i21, i22, i31, i32⟩⟩

/-- The image of a point is finite only if the point and the transform are. -/
theorem isFinite_of_apply {m : Affine} {p : Point} (h : (m.apply p).isFinite) :
    m.isFinite ∧ p.isFinite := by
  obtain ⟨hx, hy⟩ := Bool.and_eq_true_iff.mp h
  obtain ⟨hx, m31⟩ := Scalar.isFinite_of_add hx
  obtain ⟨⟨px, m11⟩, py, m21⟩ := isFinite_of_products hx
  obtain ⟨hy, m32⟩ := Scalar.isFinite_of_add hy
  obtain ⟨⟨-, m12⟩, -, m22⟩ := isFinite_of_products hy
  exact ⟨isFinite_iff.mpr ⟨m11, m12, m21, m22, m31, m32⟩, Bool.and_eq_true_iff.mpr ⟨px, py⟩⟩

end Affine

/-! ## Paths -/

theorem Point.checkAll_eq (subject : Subject) (points : List Point) :
    checkAll subject points =
      if ∀ q ∈ points, q.isFinite then .ok () else .error (.nonFinite subject) := by
  unfold checkAll
  by_cases h : ∀ q ∈ points, q.isFinite
  · rw [if_pos h, if_pos (List.all_eq_true.mpr h)]
  · rw [if_neg h, if_neg fun hall => h (List.all_eq_true.mp hall)]

theorem Point.checkAll_eq_ok_iff {subject : Subject} {points : List Point} :
    checkAll subject points = .ok () ↔ ∀ q ∈ points, q.isFinite := by
  rw [checkAll_eq]
  split
  · exact iff_of_true rfl ‹_›
  · exact iff_of_false nofun ‹_›

theorem Command.points_map (c : Command) (f : Point → Point) : (c.map f).points = c.points.map f := by
  cases c with
  | moveTo p => rfl
  | draw s => cases s <;> rfl
  | close => rfl

namespace Path

/-- All points of the path are finite. -/
def Finite (p : Path) : Prop := ∀ q ∈ p.points, q.isFinite

instance (p : Path) : Decidable p.Finite := inferInstanceAs (Decidable (∀ q ∈ p.points, q.isFinite))

/-- The check of a path passes if the path is finite. -/
theorem check_eq (p : Path) (subject : Subject) :
    p.check subject = if p.Finite then .ok () else .error (.nonFinite subject) :=
  Point.checkAll_eq subject p.points

/-- A path is mapped point by point. -/
theorem points_map (cs : List Command) (f : Point → Point) :
    points ⟨cs.map (Command.map f)⟩ = (points ⟨cs⟩).map f := by
  induction cs with
  | nil => rfl
  | cons c cs ih =>
    show (c.map f).points ++ points ⟨cs.map (Command.map f)⟩ = (c.points ++ points ⟨cs⟩).map f
    rw [ih, Command.points_map, List.map_append]

/-- A path is finite after a transform only if it was so before, and the transform is finite unless
there is no point to be mapped. -/
theorem finite_of_transformed {p : Path} {m : Affine} (h : (p.transformed m).Finite) :
    p.Finite ∧ (p.points ≠ [] → m.isFinite) := by
  unfold transformed at h
  split at h
  · rename_i hm
    exact ⟨h, fun _ => Affine.isFinite_of_beq_identity hm⟩
  · have himage : ∀ q ∈ p.points, m.isFinite ∧ q.isFinite := by
      intro q hq
      apply Affine.isFinite_of_apply
      apply h
      rw [points_map]
      exact List.mem_map_of_mem hq
    refine ⟨fun q hq => (himage q hq).2, fun hne => ?_⟩
    obtain ⟨q, hq⟩ := List.exists_mem_of_ne_nil _ hne
    exact (himage q hq).1

end Path

end VectorScene
