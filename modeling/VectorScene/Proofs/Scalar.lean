import VectorScene.Scalar

/-!
# Equality of scalars

`==` is equality of numbers: NaN differs from itself, and the two zeros are equal. `beq_iff` states
it on unpacked numbers. Two numbers that are equal are so the same number, but for the sign of a
zero, which `abs` drops (`abs_of_beq_zero`).
-/

namespace VectorScene.Scalar

open Float.Model

theorem compare_self {u : UnpackedFloat} (hu : u ≠ .notANumber) : u.compare u = some .eq := by
  cases u with
  | infinity s => cases s <;> rfl
  | notANumber => exact absurd rfl hu
  | zero s => rfl
  | finite s m e hm =>
    have h : (compare e e).then (compare m m) = .eq := by simp
    cases s with
    | positive => exact congrArg some h
    | negative => exact congrArg (fun o : Ordering => some o.swap) h

theorem eq_of_compare_finite {m n : Nat} {e f : Int} (h : (compare e f).then (compare m n) = .eq) :
    e = f ∧ m = n := by
  simpa [Ordering.then_eq_eq] using h

/-- Numbers that compare as equal are equal, or they are zeros. -/
theorem eq_of_compare {u v : UnpackedFloat} (h : u.compare v = some .eq) :
    (u = v ∧ u ≠ .notANumber) ∨ ∃ s t, u = .zero s ∧ v = .zero t := by
  rcases u with (_ | _) | - | su | ⟨_ | _, m, e, hm⟩ <;>
    rcases v with (_ | _) | - | sv | ⟨_ | _, n, f, hn⟩
  -- All but the comparisons of two finite numbers of one sign can be evaluated.
  any_goals cases h
  any_goals exact .inl ⟨rfl, nofun⟩
  · exact .inr ⟨su, sv, rfl, rfl⟩
  · obtain ⟨rfl, rfl⟩ := eq_of_compare_finite (Ordering.swap_eq_eq.mp (Option.some.inj h))
    exact .inl ⟨rfl, nofun⟩
  · obtain ⟨rfl, rfl⟩ := eq_of_compare_finite (Option.some.inj h)
    exact .inl ⟨rfl, nofun⟩

theorem compare_eq_eq_iff {u v : UnpackedFloat} :
    u.compare v = some .eq ↔
      (u = v ∧ u ≠ .notANumber) ∨ ∃ s t, u = .zero s ∧ v = .zero t := by
  refine ⟨eq_of_compare, ?_⟩
  rintro (⟨rfl, hu⟩ | ⟨s, t, rfl, rfl⟩)
  · exact compare_self hu
  · rfl

theorem beq_iff {x y : Float32} :
    x == y ↔ (x.toModel.unpack = y.toModel.unpack ∧ x.toModel.unpack ≠ .notANumber) ∨
      ∃ s t, x.toModel.unpack = .zero s ∧ y.toModel.unpack = .zero t := by
  rw [← compare_eq_eq_iff]
  show (x.toModel.unpack.compare y.toModel.unpack == some .eq) = true ↔ _
  exact beq_iff_eq

theorem lt_iff {x y : Float32} :
    x < y ↔ x.toModel.unpack.compare y.toModel.unpack = some .lt := by
  show decide (x.toModel < y.toModel) ↔ _
  rw [decide_eq_true_iff]
  show (x.toModel.unpack.compare y.toModel.unpack == some .lt) = true ↔ _
  exact beq_iff_eq

theorem not_lt_self (x : Float32) : ¬ x < x := by
  rw [lt_iff]
  by_cases hx : x.toModel.unpack = .notANumber
  · rw [hx]
    nofun
  · rw [compare_self hx]
    nofun

/-- Of two numbers, the one that is picked as the smaller is not above the second. -/
theorem not_lt_lesser (a b : Float32) : ¬ b < lesser a b := by
  unfold lesser
  split
  · exact not_lt_self b
  · split
    · exact not_lt_self b
    · assumption

theorem beq_symm {x y : Float32} (h : x == y) : y == x := by
  rcases beq_iff.mp h with ⟨hxy, hx⟩ | ⟨s, t, hx, hy⟩
  · exact beq_iff.mpr (.inl ⟨hxy.symm, hxy ▸ hx⟩)
  · exact beq_iff.mpr (.inr ⟨t, s, hy, hx⟩)

theorem beq_trans {x y z : Float32} (h : x == y) (h' : y == z) : x == z := by
  rcases beq_iff.mp h with ⟨hxy, hx⟩ | ⟨s, t, hx, hy⟩
  · rwa [beq_iff, hxy, ← beq_iff]
  · obtain ⟨u, hz⟩ : ∃ u, z.toModel.unpack = .zero u := by
      rcases beq_iff.mp h' with ⟨hyz, -⟩ | ⟨-, u, -, hz⟩
      · exact ⟨t, hyz.symm.trans hy⟩
      · exact ⟨u, hz⟩
    exact beq_iff.mpr (.inr ⟨s, u, hx, hz⟩)

/-- A finite number is a zero, or it has a mantissa. -/
theorem cases_of_isFinite {x : Float32} (h : x.isFinite) :
    (∃ s, x.toModel.unpack = .zero s) ∨ ∃ s m e hm, x.toModel.unpack = .finite s m e hm := by
  have h : x.toModel.unpack.isFinite := h
  cases hx : x.toModel.unpack with
  | infinity s => rw [hx] at h; cases h
  | notANumber => rw [hx] at h; cases h
  | zero s => exact .inl ⟨s, rfl⟩
  | finite s m e hm => exact .inr ⟨s, m, e, hm, rfl⟩

theorem beq_self {x : Float32} (h : x.isFinite) : x == x := by
  refine beq_iff.mpr (.inl ⟨rfl, ?_⟩)
  obtain ⟨s, hx⟩ | ⟨s, m, e, hm, hx⟩ := cases_of_isFinite h <;> rw [hx] <;> nofun

theorem unpack_one : (1 : Float32).toModel.unpack = .finite .positive 8388608 (-23) (by decide) := rfl

theorem sub_one_of_beq_one {x : Float32} (h : x == 1) : x - 1 = 0 := by
  have hx : x.toModel.unpack = (1 : Float32).toModel.unpack := by
    rcases beq_iff.mp h with ⟨hx, -⟩ | ⟨s, t, -, h1⟩
    · exact hx
    · rw [unpack_one] at h1; cases h1
  calc x - 1 = .ofModel (.pack (.sub .binary32 x.toModel.unpack (1 : Float32).toModel.unpack)) := rfl
    _ = (1 : Float32) - 1 := by rw [hx]; rfl
    _ = 0 := by decide +kernel

theorem sub_self {x : Float32} (hx : x.isFinite) : x - x = 0 := by
  have hsub : UnpackedFloat.sub .binary32 x.toModel.unpack x.toModel.unpack = .zero .positive := by
    obtain ⟨s, hx⟩ | ⟨s, m, e, hm, hx⟩ := cases_of_isFinite hx <;> rw [hx]
    · cases s <;> rfl
    · unfold UnpackedFloat.sub
      dsimp only
      rw [Int.sub_self]
      rfl
  show Float32.ofModel (.pack (UnpackedFloat.sub .binary32 x.toModel.unpack x.toModel.unpack)) = 0
  rw [hsub]
  decide +kernel

theorem beq_zero_iff {x : Float32} : x == 0 ↔ ∃ s, x.toModel.unpack = .zero s := by
  refine ⟨fun h => ?_, fun ⟨s, hx⟩ => beq_iff.mpr (.inr ⟨s, .positive, hx, rfl⟩)⟩
  rcases beq_iff.mp h with ⟨hx, -⟩ | ⟨s, t, hx, -⟩
  · exact ⟨.positive, hx.trans rfl⟩
  · exact ⟨s, hx⟩

theorem abs_of_beq_zero {x : Float32} (h : x == 0) : x.abs = 0 := by
  obtain ⟨s, hx⟩ := beq_zero_iff.mp h
  calc x.abs = .ofModel (.pack x.toModel.unpack.abs) := rfl
    _ = 0 := by rw [hx]; rfl

end VectorScene.Scalar
