import Mathlib.Algebra.Group.Nat.Defs
import VectorScene.Proofs.Identity

/-!
# Rounding

A number of the format has 24 binary digits. What is computed is a whole number of units, and of more than
24 digits it is rounded to the nearest number that has only zeros behind them, a half to the even side:
`Scalar.nearest`. `Scalar.exists_round` states this of `round` for any unit; zeros that are written behind a
number make no difference (`Scalar.nearest_mul_two_pow`).

From 33554432 on, the numbers of 24 digits are four or more apart, and so each of them is kept when one is
taken away or added (`Scalar.nearest_pred_of_wide`, `Scalar.nearest_succ_of_wide`).
-/

namespace VectorScene.Scalar

open Float.Model UnpackedFloat

/-! ## Halves -/

/-- A quotient rounded to the nearest whole number, a half to the even side. -/
def halfEven (n d : Nat) : Nat :=
  if 2 * (n % d) < d then n / d
  else if 2 * (n % d) = d then n / d + n / d % 2
  else n / d + 1

theorem div_le_halfEven (n d : Nat) : n / d ≤ halfEven n d := by
  unfold halfEven
  split
  · exact Nat.le_refl _
  · split <;> omega

theorem halfEven_mul_self (n : Nat) {d : Nat} (hd : 0 < d) : halfEven (n * d) d = n := by
  simp [halfEven, hd]

theorem halfEven_mul_right (n d : Nat) {c : Nat} (hc : 0 < c) :
    halfEven (n * c) (d * c) = halfEven n d := by
  have hdouble : 2 * (n % d * c) = 2 * (n % d) * c := (Nat.mul_assoc _ _ _).symm
  simp only [halfEven, Nat.mul_div_mul_right n d hc, Nat.mul_mod_mul_right, hdouble,
    Nat.mul_lt_mul_right hc, Nat.mul_right_cancel_iff hc]

/-- A quotient with its rest. -/
theorem halfEven_add (m : Nat) {r d : Nat} (hr : r < d) :
    halfEven (m * d + r) d = if 2 * r < d then m else if 2 * r = d then m + m % 2 else m + 1 := by
  have hdiv : (m * d + r) / d = m := by
    rw [Nat.mul_comm, Nat.mul_add_div (Nat.zero_lt_of_lt hr), Nat.div_eq_of_lt hr, Nat.add_zero]
  have hmod : (m * d + r) % d = r := by
    rw [Nat.mul_comm, Nat.mul_add_mod, Nat.mod_eq_of_lt hr]
  rw [halfEven, hdiv, hmod]

/-- A quotient below a whole number is not rounded beyond it. -/
theorem halfEven_le {n d q : Nat} (hd : 0 < d) (h : n < q * d) : halfEven n d ≤ q := by
  have hdiv : n / d < q := (Nat.div_lt_iff_lt_mul hd).mpr h
  unfold halfEven
  split
  · omega
  · split <;> omega

/-! ## Bits that are shifted out -/

/-- The last bit that is shifted out is kept, and of those before it whether one is set. -/
theorem shiftRight_succ_eq (n k : Nat) :
    ExtendedMantissa.mk n false false >>> (k + 1) =
      ⟨n / 2 ^ (k + 1), n / 2 ^ k % 2 != 0, n % 2 ^ k != 0⟩ := by
  induction k with
  | zero => simp [HShiftRight.hShiftRight, Nat.repeat, ExtendedMantissa.shiftRightOne, Nat.mod_one]
  | succ k ih =>
    show (ExtendedMantissa.mk n false false >>> (k + 1)).shiftRightOne = _
    have hsticky : (n / 2 ^ k % 2 != 0 || n % 2 ^ k != 0) = (n % 2 ^ (k + 1) != 0) := by
      rw [Nat.mod_pow_succ, Bool.eq_iff_iff]
      have hpow := Nat.two_pow_pos k
      simp only [Bool.or_eq_true, bne_iff_ne, ne_eq, Nat.add_eq_zero_iff, Nat.mul_eq_zero]
      omega
    rw [ih, ExtendedMantissa.shiftRightOne, hsticky, Nat.div_div_eq_div_mul, ← Nat.pow_succ]

theorem roundedMantissa_mk (m : Nat) (round sticky : Bool) :
    (ExtendedMantissa.mk m round sticky).roundedMantissa =
      if round then if sticky then m + 1 else m + m % 2 else m := by
  cases round <;> cases sticky <;> rfl

theorem roundedMantissa_shiftRight (n k : Nat) :
    (ExtendedMantissa.mk n false false >>> k).roundedMantissa = halfEven n (2 ^ k) := by
  cases k with
  | zero => simp [HShiftRight.hShiftRight, Nat.repeat, halfEven, Nat.mod_one, roundedMantissa_mk]
  | succ k =>
    have hmod : n % 2 ^ (k + 1) = n % 2 ^ k + 2 ^ k * (n / 2 ^ k % 2) := Nat.mod_pow_succ
    have hlow : n % 2 ^ k < 2 ^ k := Nat.mod_lt n (Nat.two_pow_pos k)
    have hpow : 2 ^ (k + 1) = 2 * 2 ^ k := Nat.pow_succ'
    rw [shiftRight_succ_eq, roundedMantissa_mk, halfEven, hmod]
    -- The bit that is shifted out last says whether a half is cut off, and the others whether more is.
    obtain hbit | hbit : n / 2 ^ k % 2 = 0 ∨ n / 2 ^ k % 2 = 1 := by omega
    · rw [hbit, if_pos (show 2 * (n % 2 ^ k + 2 ^ k * 0) < 2 ^ (k + 1) by omega)]
      rfl
    · rw [hbit, if_neg (show ¬2 * (n % 2 ^ k + 2 ^ k * 1) < 2 ^ (k + 1) by omega)]
      by_cases hrest : n % 2 ^ k = 0
      · rw [if_pos (show 2 * (n % 2 ^ k + 2 ^ k * 1) = 2 ^ (k + 1) by omega), hrest]
        rfl
      · rw [if_neg (show ¬2 * (n % 2 ^ k + 2 ^ k * 1) = 2 ^ (k + 1) by omega)]
        simp [hrest]

/-! ## 24 digits -/

/-- How far the numbers of 24 digits are apart around `n`, as a power of two. -/
def gapLog (n : Nat) : Nat := n.log2 - 23

/-- The number that has 24 binary digits, and zeros behind them, and is nearest to `n`. -/
def nearest (n : Nat) : Nat := halfEven n (2 ^ gapLog n) * 2 ^ gapLog n

/-- How many zeros are written behind a whole number to give it 24 binary digits. -/
def padding (n : Nat) : Nat := 23 - n.log2

theorem nearest_of_log2_le {n : Nat} (h : n.log2 ≤ 23) : nearest n = n := by
  have hgap : gapLog n = 0 := by unfold gapLog; omega
  simp [nearest, hgap, halfEven, Nat.mod_one]

theorem log2_mul_two_pow {n : Nat} (hn : 0 < n) (k : Nat) : (n * 2 ^ k).log2 = n.log2 + k := by
  rw [← Nat.shiftLeft_eq, log2_shiftLeft (Nat.ne_of_gt hn)]

/-- Zeros behind a number stay behind it. -/
theorem nearest_mul_two_pow (n k : Nat) : nearest (n * 2 ^ k) = nearest n * 2 ^ k := by
  obtain rfl | hn := Nat.eq_zero_or_pos n
  · rw [Nat.zero_mul, nearest_of_log2_le (by decide), Nat.zero_mul]
  have hlog := log2_mul_two_pow hn k
  by_cases hlong : 23 ≤ n.log2
  · have hgap : 2 ^ gapLog (n * 2 ^ k) = 2 ^ gapLog n * 2 ^ k := by
      rw [← Nat.pow_add]
      congr 1
      unfold gapLog
      omega
    rw [nearest, hgap, halfEven_mul_right _ _ (Nat.two_pow_pos k), ← Nat.mul_assoc]
    rfl
  · -- Of the zeros, some have a place among the digits, and all others are cut off and written again.
    have hzeros : n * 2 ^ k = n * 2 ^ (k - gapLog (n * 2 ^ k)) * 2 ^ gapLog (n * 2 ^ k) := by
      rw [Nat.mul_assoc, ← Nat.pow_add]
      congr 2
      unfold gapLog
      omega
    have hround := halfEven_mul_self (n * 2 ^ (k - gapLog (n * 2 ^ k)))
      (Nat.two_pow_pos (gapLog (n * 2 ^ k)))
    rw [← hzeros] at hround
    rw [nearest, hround, ← hzeros, nearest_of_log2_le (by omega)]

/-- What a number of more than 24 digits is rounded to has 24 digits, or one more. -/
theorem halfEven_gap {n : Nat} (h : 23 ≤ n.log2) :
    2 ^ 23 ≤ halfEven n (2 ^ gapLog n) ∧ halfEven n (2 ^ gapLog n) ≤ 2 ^ 24 := by
  have hpos : 0 < 2 ^ gapLog n := Nat.two_pow_pos _
  have hn : n ≠ 0 := by rintro rfl; exact absurd h (by decide)
  have hlog : 23 + gapLog n = n.log2 := by unfold gapLog; omega
  constructor
  · refine Nat.le_trans ?_ (div_le_halfEven n _)
    rw [Nat.le_div_iff_mul_le hpos, ← Nat.pow_add, hlog]
    exact Nat.log2_self_le hn
  · refine halfEven_le hpos ?_
    rw [← Nat.pow_add, show 24 + gapLog n = n.log2 + 1 by omega]
    exact Nat.lt_log2_self

/-- A number is not rounded beyond a power of two. -/
theorem nearest_le_two_pow {n k : Nat} (h : n < 2 ^ k) : nearest n ≤ 2 ^ k := by
  by_cases hlong : 23 ≤ n.log2
  · have hn : n ≠ 0 := by rintro rfl; exact absurd hlong (by decide)
    have hlog : 24 + gapLog n ≤ k := by
      have := (Nat.log2_lt hn).mpr h
      unfold gapLog
      omega
    calc nearest n ≤ 2 ^ 24 * 2 ^ gapLog n := Nat.mul_le_mul_right _ (halfEven_gap hlong).2
      _ = 2 ^ (24 + gapLog n) := (Nat.pow_add 2 24 _).symm
      _ ≤ 2 ^ k := Nat.pow_le_pow_right (by decide) hlog
  · rw [nearest_of_log2_le (by omega)]
    exact Nat.le_of_lt h

@[inherit_doc nearest_le_two_pow]
theorem two_pow_le_nearest {n k : Nat} (h : 2 ^ k ≤ n) : 2 ^ k ≤ nearest n := by
  by_cases hlong : 23 ≤ n.log2
  · have hn : n ≠ 0 := Nat.ne_of_gt (Nat.lt_of_lt_of_le (Nat.two_pow_pos k) h)
    have hlog : k ≤ 23 + gapLog n := by
      have := (Nat.le_log2 hn).mpr h
      unfold gapLog
      omega
    calc 2 ^ k ≤ 2 ^ (23 + gapLog n) := Nat.pow_le_pow_right (by decide) hlog
      _ = 2 ^ 23 * 2 ^ gapLog n := Nat.pow_add 2 23 _
      _ ≤ nearest n := Nat.mul_le_mul_right _ (halfEven_gap hlong).1
  · rwa [nearest_of_log2_le (by omega)]

/-- Up to 16777216, every number is kept. -/
theorem nearest_of_le {n : Nat} (h : n ≤ 16777216) : nearest n = n := by
  obtain rfl | hlt := Nat.eq_or_lt_of_le h
  · decide
  · obtain rfl | hn := Nat.eq_zero_or_pos n
    · decide
    · have := (Nat.log2_lt (k := 24) (Nat.ne_of_gt hn)).mpr hlt
      exact nearest_of_log2_le (by omega)

/-- What is rounded is kept when it is rounded again. -/
theorem nearest_nearest (n : Nat) : nearest (nearest n) = nearest n := by
  by_cases hlong : 23 ≤ n.log2
  · show nearest (halfEven n (2 ^ gapLog n) * 2 ^ gapLog n) = _
    rw [nearest_mul_two_pow, nearest_of_le (halfEven_gap hlong).2]
    rfl
  · have hn : nearest n = n := nearest_of_log2_le (by omega)
    rw [hn, hn]

theorem nearest_pos {n : Nat} (hn : 0 < n) : 0 < nearest n :=
  two_pow_le_nearest (k := 0) hn

/-- Between 16777216 and 33554432, a number is rounded to a multiple of two, and between two of them to the
multiple of four. -/
theorem nearest_of_lt {n : Nat} (h : 16777216 ≤ n) (hlt : n < 33554432) :
    nearest n = if n % 4 = 1 then n - 1 else if n % 4 = 3 then n + 1 else n := by
  have hlog : n.log2 = 24 := (Nat.log2_eq_iff (by omega)).mpr ⟨h, hlt⟩
  have hgap : 2 ^ gapLog n = 2 := by simp [gapLog, hlog]
  rw [nearest, hgap, halfEven]
  grind

/-! ## Wide numbers -/

/-- A number of 24 digits from 33554432 on is one of the digits with two zeros behind them. -/
theorem exists_digits_of_wide {n : Nat} (h : nearest n = n) (hwide : 33554432 ≤ n) :
    ∃ m k, n = m * 2 ^ (k + 2) ∧ 2 ^ 23 ≤ m ∧ m < 2 ^ 24 := by
  have hne : n ≠ 0 := by omega
  have hlog : 25 ≤ n.log2 := (Nat.le_log2 hne).mpr hwide
  have hdigits : n = halfEven n (2 ^ gapLog n) * 2 ^ gapLog n := h.symm
  obtain ⟨k, hk⟩ : ∃ k, gapLog n = k + 2 := Nat.exists_eq_add_of_le' (by unfold gapLog; omega)
  refine ⟨halfEven n (2 ^ gapLog n), k, hk ▸ hdigits, (halfEven_gap (by omega)).1, ?_⟩
  refine Nat.lt_of_mul_lt_mul_right (a := 2 ^ gapLog n) ?_
  rw [← hdigits, ← Nat.pow_add, show 24 + gapLog n = n.log2 + 1 by unfold gapLog; omega]
  exact Nat.lt_log2_self

/-- A number is rounded by what stands behind its first 24 digits. -/
theorem nearest_add {m k r : Nat} (hm : 2 ^ 23 ≤ m ∧ m < 2 ^ 24) (hr : r < 2 ^ k) :
    nearest (m * 2 ^ k + r) =
      (if 2 * r < 2 ^ k then m else if 2 * r = 2 ^ k then m + m % 2 else m + 1) * 2 ^ k := by
  have hleast : 2 ^ (23 + k) ≤ m * 2 ^ k + r := by
    rw [Nat.pow_add]
    exact Nat.le_add_right_of_le (Nat.mul_le_mul_right _ hm.1)
  have hne : m * 2 ^ k + r ≠ 0 := Nat.ne_of_gt (Nat.lt_of_lt_of_le (Nat.two_pow_pos _) hleast)
  have hmost : m * 2 ^ k + r < 2 ^ (24 + k) := by
    rw [Nat.pow_add]
    have := Nat.mul_le_mul_right (2 ^ k) (Nat.succ_le_of_lt hm.2)
    rw [Nat.succ_mul] at this
    omega
  have hgap : gapLog (m * 2 ^ k + r) = k := by
    have hlog : (m * 2 ^ k + r).log2 = 23 + k :=
      (Nat.log2_eq_iff hne).mpr ⟨hleast, by rwa [show 23 + k + 1 = 24 + k by omega]⟩
    unfold gapLog
    omega
  rw [nearest, hgap, halfEven_add m hr]

theorem nearest_succ_of_wide {n : Nat} (h : nearest n = n) (hwide : 33554432 ≤ n) :
    nearest (n + 1) = n := by
  obtain ⟨m, k, rfl, hm⟩ := exists_digits_of_wide h hwide
  have hfour : 2 ^ (k + 2) = 4 * 2 ^ k := Nat.pow_add' 2 k 2
  have hpos := Nat.two_pow_pos k
  rw [nearest_add hm (by omega), if_pos (by omega)]

theorem nearest_pred_of_wide {n : Nat} (h : nearest n = n) (hwide : 33554432 ≤ n) :
    nearest (n - 1) = n := by
  obtain ⟨m, k, rfl, hm⟩ := exists_digits_of_wide h hwide
  have hpos := Nat.two_pow_pos k
  have htwo : 2 ^ (k + 1) = 2 * 2 ^ k := Nat.pow_succ'
  have hfour : 2 ^ (k + 2) = 4 * 2 ^ k := Nat.pow_add' 2 k 2
  obtain ⟨m, rfl⟩ := Nat.exists_eq_add_of_lt (show 0 < m by omega)
  rw [Nat.zero_add] at *
  obtain hlow | hlow : 2 ^ 23 ≤ m ∨ m = 2 ^ 23 - 1 := by omega
  · have hdigits : (m + 1) * 2 ^ (k + 2) - 1 = m * 2 ^ (k + 2) + (2 ^ (k + 2) - 1) := by
      rw [Nat.succ_mul]
      omega
    rw [hdigits, nearest_add ⟨hlow, by omega⟩ (by omega), if_neg (by omega), if_neg (by omega)]
  · -- Below a power of two the numbers are half as far apart.
    subst hlow
    have hdigits : (2 ^ 23 - 1 + 1) * 2 ^ (k + 2) - 1 =
        (2 ^ 24 - 1) * 2 ^ (k + 1) + (2 ^ (k + 1) - 1) := by omega
    rw [hdigits, nearest_add (by decide) (by omega), if_neg (by omega)]
    split <;> omega

/-! ## Units -/

/-- Digits that are rounded, with one more digit at most, are written with 24 digits. -/
theorem exists_shiftToTargetExponent {q : Nat} {e : Int} (hq : 2 ^ 23 ≤ q ∧ q ≤ 2 ^ 24) (he : -149 ≤ e) :
    ∃ (m : Nat) (f : Nat), shiftToTargetExponent .binary32 q e .exact = (⟨m, false, false⟩, e + f) ∧
      m.log2 = 23 ∧ m * 2 ^ f = q := by
  have hmin : Format.binary32.minExponent = -149 := by decide
  have hbits : Format.binary32.mantissaBits = 24 := by decide
  obtain hlt | rfl := Nat.lt_or_eq_of_le hq.2
  · have hlog : q.log2 = 23 := (Nat.log2_eq_iff (by omega)).mpr ⟨hq.1, hlt⟩
    have htarget : Format.binary32.targetExponent (totalExponent q e) = e := by
      simp only [Format.targetExponent, totalExponent, hmin, hbits, hlog]
      omega
    refine ⟨q, 0, ?_, hlog, Nat.mul_one q⟩
    simpa using shiftToTargetExponent_scaled (by omega) htarget 0
  · have htarget : Format.binary32.targetExponent (totalExponent (2 ^ 23) (e + 1)) = e + 1 := by
      have hlog : (2 ^ 23).log2 = 23 := by decide
      simp only [Format.targetExponent, totalExponent, hmin, hbits, hlog]
      omega
    refine ⟨2 ^ 23, 1, ?_, by decide, by decide⟩
    have hshift := shiftToTargetExponent_scaled (by decide) htarget 1
    rwa [show e + 1 - ((1 : Nat) : Int) = e by omega] at hshift

theorem log2_padded {n : Nat} (hn : 0 < n) : (n <<< padding n).log2 = 23 + gapLog n := by
  rw [log2_shiftLeft (Nat.ne_of_gt hn)]
  unfold padding gapLog
  omega

theorem gapLog_padded {n : Nat} (hn : 0 < n) : gapLog (n <<< padding n) = gapLog n := by
  rw [gapLog, log2_padded hn, Nat.add_sub_cancel_left]

theorem targetExponent_padded (n : Nat) {e : Int} (he : -126 ≤ e) :
    Format.binary32.targetExponent (totalExponent n e) = e - padding n + gapLog n := by
  have hmin : Format.binary32.minExponent = -149 := by decide
  have hbits : Format.binary32.mantissaBits = 24 := by decide
  simp only [Format.targetExponent, totalExponent, hmin, hbits]
  unfold padding gapLog
  omega

/-- Zeros are written behind a number, or its last digits are cut off, but not both. -/
theorem shiftToTargetExponent_padded {n : Nat} (hn : 0 < n) {e : Int} (he : -126 ≤ e) :
    shiftToTargetExponent .binary32 (n <<< padding n) (e - padding n) .exact =
      (ExtendedMantissa.mk (n <<< padding n) false false >>> gapLog n, e - padding n + gapLog n) := by
  have htotal : totalExponent (n <<< padding n) (e - padding n) = totalExponent n e := by
    rw [totalExponent, totalExponent, log2_shiftLeft (Nat.ne_of_gt hn)]
    omega
  have hamount : (e - padding n + gapLog n - (e - padding n)).toNat = gapLog n := by omega
  rw [shiftToTargetExponent, htotal, targetExponent_padded n he, shiftToExponent, hamount,
    ExtendedMantissa.ofMantissaAndAccuracy]

/-- A number of units is rounded to one of 24 digits with another unit. -/
theorem exists_round {n : Nat} (hn : 0 < n) {e : Int} (he : -126 ≤ e) (s : Sign) :
    ∃ (m : Nat) (f : Int) (hm : 0 < m), UnpackedFloat.round .binary32 s n e = .finite s m f hm ∧
      m.log2 = 23 ∧ e - 23 ≤ f ∧ m * 2 ^ (f - e + 23).toNat = nearest n * 2 ^ 23 := by
  have hpadding : padding n ≤ 23 := Nat.sub_le 23 _
  have hdigits := halfEven_gap (n := n <<< padding n) (by rw [log2_padded hn]; omega)
  rw [gapLog_padded hn] at hdigits
  -- Rounding may carry into one more digit, and so the number is shifted once more.
  obtain ⟨m, f, hagain, hm, hmf⟩ :=
    exists_shiftToTargetExponent (e := e - padding n + gapLog n) hdigits (by omega)
  have hpos : m ≠ 0 := by rintro rfl; exact absurd hm (by decide)
  refine ⟨m, e - padding n + gapLog n + f, Nat.pos_of_ne_zero hpos, ?_, hm, by omega, ?_⟩
  · have hwritten : (e - (e - padding n + gapLog n)).toNat = padding n := by
      unfold padding gapLog
      omega
    unfold UnpackedFloat.round
    dsimp only
    rw [targetExponent_padded n he]
    dsimp only [decreaseExponent]
    rw [hwritten]
    unfold roundWithAccuracy
    rw [shiftToTargetExponent_padded hn he]
    dsimp only
    rw [roundedMantissa_shiftRight, hagain]
    exact dif_neg hpos
  · have hexponent : (e - padding n + gapLog n + f - e + 23).toNat = f + gapLog n + (23 - padding n) := by
      omega
    have hscaled : nearest n * 2 ^ padding n = halfEven (n <<< padding n) (2 ^ gapLog n) * 2 ^ gapLog n := by
      rw [← nearest_mul_two_pow, ← Nat.shiftLeft_eq, nearest, gapLog_padded hn]
    calc m * 2 ^ (e - padding n + gapLog n + f - e + 23).toNat
        = m * 2 ^ f * 2 ^ gapLog n * 2 ^ (23 - padding n) := by
          rw [hexponent, Nat.pow_add, Nat.pow_add, ← Nat.mul_assoc, ← Nat.mul_assoc]
      _ = nearest n * 2 ^ padding n * 2 ^ (23 - padding n) := by rw [hmf, ← hscaled]
      _ = nearest n * 2 ^ 23 := by rw [Nat.mul_assoc, ← Nat.pow_add, Nat.add_sub_cancel' hpadding]

end VectorScene.Scalar
