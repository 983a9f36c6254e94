import Mathlib.Data.Prod.Lex
import VectorScene.Proofs.Scalar

/-!
# Order of scalars

`≤` compares numbers: it is transitive (`Scalar.le_trans`), and of two finite numbers one is below the
other (`Scalar.le_or_le`); NaN is below nothing and above nothing. Both are read off `Scalar.rank?`, which
puts the numbers in a linear order, the two zeros in one place.
-/

namespace VectorScene.Scalar

open Float.Model

/-- The place of a number, which is that of its kind first: infinite and negative, negative, zero, positive,
infinite and positive. Numbers of one kind are placed by the exponent, and then by the mantissa. -/
def rank? : UnpackedFloat → Option (ℤ ×ₗ ℤ ×ₗ ℤ)
  | .notANumber => none
  | .infinity .negative => some (toLex (-2, toLex (0, 0)))
  | .finite .negative m e _ => some (toLex (-1, toLex (-e, -(m : ℤ))))
  | .zero _ => some (toLex (0, toLex (0, 0)))
  | .finite .positive m e _ => some (toLex (1, toLex (e, (m : ℤ))))
  | .infinity .positive => some (toLex (2, toLex (0, 0)))

theorem isLE_compare_finite {m n : Nat} {e f : Int} :
    ((compare e f).then (compare m n)).isLE ↔ e < f ∨ e = f ∧ m ≤ n := by
  rw [Ordering.isLE_then_iff_or, compare_lt_iff_lt, compare_eq_iff_eq, Nat.isLE_compare]

theorem isGE_compare_finite {m n : Nat} {e f : Int} :
    ((compare e f).then (compare m n)).isGE ↔ f < e ∨ e = f ∧ n ≤ m := by
  rw [← Ordering.isLE_swap, Ordering.swap_then, Int.compare_swap, Nat.compare_swap, isLE_compare_finite,
    eq_comm]

/-- Numbers compare as their places do. -/
theorem isLE_compare_iff {u v : UnpackedFloat} :
    (u.compare v).any (·.isLE) ↔ ∃ a ∈ rank? u, ∃ b ∈ rank? v, a ≤ b := by
  rcases u with (_ | _) | - | su | ⟨_ | _, m, e, hm⟩ <;>
    rcases v with (_ | _) | - | sv | ⟨_ | _, n, f, hn⟩ <;>
    dsimp only [UnpackedFloat.compare, rank?] <;>
    simp [Prod.Lex.toLex_le_toLex]
  -- What remains are signs of infinities, and finite numbers of one sign.
  any_goals rfl
  · exact isGE_compare_finite
  · exact isLE_compare_finite

theorem le_iff {x y : Float32} :
    x ≤ y ↔ ∃ a ∈ rank? x.toModel.unpack, ∃ b ∈ rank? y.toModel.unpack, a ≤ b := by
  rw [← isLE_compare_iff]
  show decide (x.toModel ≤ y.toModel) ↔ _
  rw [decide_eq_true_iff]
  exact Iff.rfl

theorem exists_rank {x : Float32} (h : x.isFinite) : ∃ a, a ∈ rank? x.toModel.unpack := by
  obtain ⟨s, hx⟩ | ⟨s, m, e, hm, hx⟩ := cases_of_isFinite h <;> rw [hx] <;> cases s <;> exact ⟨_, rfl⟩

theorem le_trans {x y z : Float32} (h : x ≤ y) (h' : y ≤ z) : x ≤ z := by
  obtain ⟨a, ha, b, hb, hab⟩ := le_iff.mp h
  obtain ⟨b', hb', c, hc, hbc⟩ := le_iff.mp h'
  obtain rfl : b = b' := Option.mem_unique hb hb'
  exact le_iff.mpr ⟨a, ha, c, hc, hab.trans hbc⟩

theorem le_or_le {x y : Float32} (hx : x.isFinite) (hy : y.isFinite) : x ≤ y ∨ y ≤ x := by
  obtain ⟨a, ha⟩ := exists_rank hx
  obtain ⟨b, hb⟩ := exists_rank hy
  exact (le_total a b).imp (fun h => le_iff.mpr ⟨a, ha, b, hb, h⟩)
    fun h => le_iff.mpr ⟨b, hb, a, ha, h⟩

end VectorScene.Scalar
