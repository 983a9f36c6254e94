import VectorScene.Proofs.Rounding

/-!
# Whole numbers

A whole number, and half of one, is a number of halves (`Scalar.IsHalves`). Converting a whole number, adding
and subtracting round the number of halves (`Scalar.isHalves_ofNat`, `Scalar.IsHalves.add`,
`Scalar.IsHalves.sub`), and there is one number of the format for each (`Scalar.IsHalves.unique`). When the
fraction is cut off, what is left is half of it (`Scalar.IsHalves.toNat_eq`); a number that is not above
another one is not above it then either (`Scalar.toNat_le_of_not_lt`). So the last of `n` columns, which is
computed as one less than `n`, is known (`Scalar.toNat_ofNat_sub_one`): `n` is rounded, and one less than that
is rounded again.

Wide numbers are whole, and a half more or less does not change them.
-/

namespace VectorScene.Scalar

open Float.Model UnpackedFloat

/-! ## Packing -/

theorem ofBitVec_toBitVec (s : Sign) : Sign.ofBitVec s.toBitVec = s := by
  cases s <;> rfl

theorem unpackSign_packComponents (s : Sign) (exponent : BitVec 8) (mantissa : BitVec 23) :
    unpackSign (packComponents .binary32 s exponent mantissa) = s.toBitVec := by
  refine BitVec.eq_of_getLsbD_eq fun i hi => ?_
  obtain rfl : i = 0 := by omega
  show (((s.toBitVec ++ exponent ++ mantissa : BitVec 32).extractLsb 31 31).cast rfl :
    BitVec 1).getLsbD 0 = _
  simp only [BitVec.getLsbD_append, BitVec.getLsbD_cast, BitVec.getLsbD_extractLsb]
  simp

theorem finite_congr {s : Sign} {m n : Nat} {e f : Int} {hm : 0 < m} {hn : 0 < n} (hmn : m = n)
    (hef : e = f) : UnpackedFloat.finite s m e hm = .finite s n f hn := by
  subst hmn hef
  rfl

theorem unpack_packComponents {s : Sign} {exponent : BitVec 8} {mantissa : BitVec 23}
    (hinfinite : exponent ≠ -1#8) (hzero : exponent ≠ 0#8) :
    unpack .binary32 (packComponents .binary32 s exponent mantissa) =
      .finite s (1#1 ++ mantissa).toNat (exponent.toNat - 150) (by rw [toNat_leading]; omega) := by
  have hbias : Format.binary32.exponentBias = 127 := by decide
  have hsign := unpackSign_packComponents s exponent mantissa
  have hexponent : unpackExponent (packComponents .binary32 s exponent mantissa) = exponent :=
    unpackExponent_packComponents
  have hmantissa : unpackMantissa (packComponents .binary32 s exponent mantissa) = mantissa :=
    unpackMantissa_packComponents
  unfold UnpackedFloat.unpack
  dsimp only
  rw [hexponent, if_neg hinfinite, if_neg hzero, hsign, ofBitVec_toBitVec, hbias]
  exact finite_congr (by rw [hmantissa]) rfl

/-- A number of 24 binary digits that is in the range of the format is kept by packing. -/
theorem unpack_pack_normal {s : Sign} {m : Nat} {e : Int} (hm : 0 < m) (hlog : m.log2 = 23)
    (hlow : -149 ≤ e) (hhigh : e ≤ 104) :
    (Float32.Model.pack (.finite s m e hm)).unpack = .finite s m e hm := by
  have hbias : Format.binary32.exponentBias = 127 := by decide
  have hbits : Format.binary32.mantissaBits = 24 := by decide
  obtain ⟨hleast, hmost⟩ : 8388608 ≤ m ∧ m < 16777216 := (Nat.log2_eq_iff (Nat.ne_of_gt hm)).mp hlog
  have hbiased : (e + (127 : Nat) + (23 : Nat)).toNat = (e + 150).toNat := by omega
  have hstored : (BitVec.ofNat 8 (e + 150).toNat).toNat = (e + 150).toNat := by
    rw [BitVec.toNat_ofNat]
    exact Nat.mod_eq_of_lt (by omega)
  have hleading : (1#1 ++ BitVec.ofNat 23 m).toNat = m := by
    rw [toNat_leading, BitVec.toNat_ofNat]
    omega
  have hpack : pack .binary32 (.finite s m e hm) =
      packComponents .binary32 s (.ofNat 8 (e + 150).toNat) (.ofNat 23 m) := by
    unfold UnpackedFloat.pack
    dsimp only
    rw [hbias, hbits, hlog, hbiased, if_neg (show ¬ 256 ≤ _ by omega), if_pos rfl]
  have hne : ∀ v : BitVec 8, v.toNat = 255 ∨ v.toNat = 0 → BitVec.ofNat 8 (e + 150).toNat ≠ v := by
    rintro v hv rfl
    omega
  show unpack .binary32 (pack .binary32 (.finite s m e hm)) = _
  rw [hpack, unpack_packComponents (hne _ (.inl rfl)) (hne _ (.inr rfl))]
  exact finite_congr hleading (by rw [hstored]; omega)

theorem toNat_toUInt64 {n : Nat} (hlt : n < 2 ^ 64) : n.toUInt64.toNat = n := by
  rw [Nat.toUInt64, UInt64.toNat_ofNat']
  exact Nat.mod_eq_of_lt hlt

/-- The digits of a number of the format: not more than 24, and not less unless it has the least exponent. -/
theorem digits_of_unpack {b : BitVec Format.binary32.numBits} {s : Sign} {m : Nat} {e : Int} {hm : 0 < m}
    (h : unpack .binary32 b = .finite s m e hm) :
    m < 2 ^ 24 ∧ -149 ≤ e ∧ (-149 < e → 2 ^ 23 ≤ m) := by
  have hmantissa : (unpackMantissa b).toNat < 8388608 := (unpackMantissa b).isLt
  obtain ⟨-, ⟨-, rfl, rfl⟩ | ⟨hzero, -, rfl, rfl⟩⟩ := cases_of_unpack b h <;> omega

/-- Of two numbers of 24 digits, the one with the greater unit is the greater one. -/
theorem scaled_lt {m q a b : Nat} (hm : m < 2 ^ 24) (hq : 2 ^ 23 ≤ q) (h : a < b) : m * 2 ^ a < q * 2 ^ b :=
  calc m * 2 ^ a < 2 ^ 24 * 2 ^ a := Nat.mul_lt_mul_of_pos_right hm (Nat.two_pow_pos a)
    _ = 2 ^ 23 * 2 ^ (a + 1) := by rw [Nat.pow_succ']; omega
    _ ≤ q * 2 ^ b := Nat.mul_le_mul hq (Nat.pow_le_pow_right (by decide) h)

/-! ## Halves -/

/-- `x` is `n` halves, with 24 binary digits. -/
def IsHalves (x : Float32) (n : Nat) : Prop :=
  ∃ (m : Nat) (e : Int) (hm : 0 < m), x.toModel.unpack = .finite .positive m e hm ∧ m.log2 = 23 ∧
    -24 ≤ e ∧ m * 2 ^ (e + 24).toNat = n * 2 ^ 23

/-- The unit of a number of 24 digits, by how many halves they make. -/
theorem unit_of_scaled {q k : Nat} {f : Int} (hq : 2 ^ 23 ≤ q ∧ q < 2 ^ 24) (hk : 0 < k ∧ k ≤ 2 ^ 100)
    (h : q * 2 ^ (f + 47).toNat = k * 2 ^ 46) :
    -24 ≤ f ∧ f ≤ 104 ∧ q * 2 ^ (f + 24).toNat = k * 2 ^ 23 := by
  have hlow : -24 ≤ f := by
    refine Int.not_lt.mp fun hlt => ?_
    have hpow : 2 ^ (f + 47).toNat ≤ 2 ^ 22 := Nat.pow_le_pow_right (by decide) (by omega)
    have hless := Nat.lt_of_le_of_lt (Nat.mul_le_mul_left q hpow) (Nat.mul_lt_mul_of_pos_right hq.2 (by decide))
    omega
  have hvalue : q * 2 ^ (f + 24).toNat = k * 2 ^ 23 := by
    have hsplit : (f + 47).toNat = (f + 24).toNat + 23 := by omega
    rw [hsplit, Nat.pow_add, ← Nat.mul_assoc] at h
    omega
  refine ⟨hlow, Int.not_lt.mp fun hlt => ?_, hvalue⟩
  have hpow : 2 ^ 128 ≤ 2 ^ (f + 24).toNat := Nat.pow_le_pow_right (by decide) (by omega)
  have hgreat := Nat.mul_le_mul hq.1 hpow
  omega

/-- A number of some unit is rounded as the number of halves is that it makes. -/
theorem isHalves_pack_round {m n : Nat} {e : Int} (hm : 0 < m) (he : -24 ≤ e)
    (hn : m * 2 ^ (e + 24).toNat = n * 2 ^ 23) (hsmall : n < 2 ^ 100) :
    IsHalves (.ofModel (.pack (UnpackedFloat.round .binary32 .positive m e))) (nearest n) := by
  obtain ⟨q, f, hq, hround, hlog, hf, hqf⟩ := exists_round hm (e := e) (by omega) .positive
  have hscaled : q * 2 ^ (f + 47).toNat = nearest n * 2 ^ 46 :=
    calc q * 2 ^ (f + 47).toNat = q * 2 ^ (f - e + 23).toNat * 2 ^ (e + 24).toNat := by
          rw [Nat.mul_assoc, ← Nat.pow_add]
          congr 2
          omega
      _ = nearest (m * 2 ^ (e + 24).toNat) * 2 ^ 23 := by
          rw [hqf, nearest_mul_two_pow, Nat.mul_right_comm]
      _ = nearest n * 2 ^ 46 := by rw [hn, nearest_mul_two_pow]; omega
  have hpos : 0 < n := by
    refine Nat.pos_of_ne_zero ?_
    rintro rfl
    have := Nat.mul_pos hm (Nat.two_pow_pos (e + 24).toNat)
    omega
  obtain ⟨hlow, hhigh, hvalue⟩ := unit_of_scaled ((Nat.log2_eq_iff (Nat.ne_of_gt hq)).mp hlog)
    ⟨nearest_pos hpos, nearest_le_two_pow hsmall⟩ hscaled
  refine ⟨q, f, hq, ?_, hlog, hlow, hvalue⟩
  rw [hround]
  exact unpack_pack_normal hq hlog (by omega) hhigh

theorem normalize_of_pos {m : Nat} (hm : 0 < m) (e : Int) (s : Sign) :
    UnpackedFloat.normalize .binary32 m e s = UnpackedFloat.round .binary32 .positive m e := by
  have hpositive : compare (m : Int) 0 = .gt := Int.compare_eq_gt.mpr (Int.ofNat_lt.mpr hm)
  rw [UnpackedFloat.normalize, hpositive]
  rfl

theorem isHalves_ofNat {n : Nat} (hn : 0 < n) (hlt : n < 2 ^ 64) : IsHalves (ofNat n) (2 * nearest n) := by
  have hunits : n * 2 ^ (0 + 24 : Int).toNat = n * 2 ^ 1 * 2 ^ 23 := by
    rw [Nat.mul_assoc]
    rfl
  have hround := isHalves_pack_round hn (by decide) hunits (by omega)
  rw [nearest_mul_two_pow, Nat.mul_comm] at hround
  show IsHalves (.ofModel (.pack (UnpackedFloat.normalize .binary32 n.toUInt64.toNat 0 .positive))) _
  rwa [toNat_toUInt64 hlt, normalize_of_pos hn]

theorem isHalves_one : IsHalves 1 2 := ⟨8388608, -23, by decide, rfl, by decide, by decide, by decide⟩

theorem isHalves_wholeFrom : IsHalves wholeFrom 16777216 :=
  ⟨8388608, 0, by decide, rfl, by decide, by decide, by decide⟩

theorem isHalves_half : IsHalves 0.5 1 := ⟨8388608, -24, by decide, rfl, by decide, by decide, by decide⟩

namespace IsHalves

variable {x y : Float32} {n k : Nat}

theorem isFinite (h : IsHalves x n) : x.isFinite := by
  obtain ⟨m, e, hm, hx, -⟩ := h
  show x.toModel.unpack.isFinite
  rw [hx]
  rfl

theorem unique (hx : IsHalves x n) (hy : IsHalves y n) : x = y := by
  have hself := pack_unpack hx.isFinite
  have hother := pack_unpack hy.isFinite
  obtain ⟨m, e, hm, hx, hlog, he, hmn⟩ := hx
  obtain ⟨q, f, hq, hy, hlog', hf, hqn⟩ := hy
  have hequal : m * 2 ^ (e + 24).toNat = q * 2 ^ (f + 24).toNat := hmn.trans hqn.symm
  have hexponent : (e + 24).toNat = (f + 24).toNat := by
    have := congrArg Nat.log2 hequal
    rw [log2_mul_two_pow hm, log2_mul_two_pow hq] at this
    omega
  rw [hexponent] at hequal
  obtain rfl := Nat.eq_of_mul_eq_mul_right (Nat.two_pow_pos _) hequal
  obtain rfl : e = f := by omega
  rw [← hself, ← hother, hx, hy]

/-- The digits of a number written with a lower unit. -/
theorem lowered {m : Nat} {e u : Int} (h : m * 2 ^ (e + 24).toNat = n * 2 ^ 23) (hu : -24 ≤ u)
    (hle : u ≤ e) : (m <<< (e - u).toNat) * 2 ^ (u + 24).toNat = n * 2 ^ 23 := by
  rw [← h, Nat.shiftLeft_eq, Nat.mul_assoc, ← Nat.pow_add]
  congr 2
  omega

theorem sub (hx : IsHalves x n) (hy : IsHalves y k) (hlt : k < n) (hsmall : n < 2 ^ 100) :
    IsHalves (x - y) (nearest (n - k)) := by
  obtain ⟨m, e, hm, hx, -, he, hmn⟩ := hx
  obtain ⟨q, f, hq, hy, -, hf, hqk⟩ := hy
  have hmn := lowered hmn (u := min e f) (by omega) (by omega)
  have hqk := lowered hqk (u := min e f) (by omega) (by omega)
  have hless : q <<< (f - min e f).toNat < m <<< (e - min e f).toNat := by
    refine Nat.lt_of_mul_lt_mul_right (a := 2 ^ (min e f + 24).toNat) ?_
    omega
  have hcast : ((m <<< (e - min e f).toNat : Nat) : Int) - (q <<< (f - min e f).toNat : Nat) =
      (m <<< (e - min e f).toNat - q <<< (f - min e f).toNat : Nat) :=
    (Int.ofNat_sub (Nat.le_of_lt hless)).symm
  show IsHalves (.ofModel (.pack (UnpackedFloat.sub .binary32 x.toModel.unpack y.toModel.unpack))) _
  rw [hx, hy]
  show IsHalves (.ofModel (.pack (UnpackedFloat.normalize .binary32
    (((m <<< (e - min e f).toNat : Nat) : Int) - (q <<< (f - min e f).toNat : Nat)) (min e f)
      .positive))) _
  rw [hcast, normalize_of_pos (by omega)]
  refine isHalves_pack_round (by omega) (by omega) ?_ (by omega)
  rw [Nat.sub_mul, hmn, hqk, Nat.sub_mul]

theorem add (hx : IsHalves x n) (hy : IsHalves y k) (hsmall : n + k < 2 ^ 100) :
    IsHalves (x + y) (nearest (n + k)) := by
  obtain ⟨m, e, hm, hx, -, he, hmn⟩ := hx
  obtain ⟨q, f, hq, hy, -, hf, hqk⟩ := hy
  have hmn := lowered hmn (u := min e f) (by omega) (by omega)
  have hqk := lowered hqk (u := min e f) (by omega) (by omega)
  have hpos : 0 < m <<< (e - min e f).toNat + q <<< (f - min e f).toNat := by
    rw [Nat.shiftLeft_eq]
    exact Nat.add_pos_left (Nat.mul_pos hm (Nat.two_pow_pos _)) _
  show IsHalves (.ofModel (.pack (UnpackedFloat.add .binary32 x.toModel.unpack y.toModel.unpack))) _
  rw [hx, hy]
  show IsHalves (.ofModel (.pack (UnpackedFloat.normalize .binary32
    (m <<< (e - min e f).toNat + q <<< (f - min e f).toNat : Nat) (min e f) .positive))) _
  rw [normalize_of_pos hpos]
  refine isHalves_pack_round hpos (by omega) ?_ hsmall
  rw [Nat.add_mul, hmn, hqk, Nat.add_mul]

end IsHalves

/-! ## Cutting off -/

theorem mantissa_shiftRight (m k : Nat) :
    (ExtendedMantissa.mk m false false >>> k).mantissa = m / 2 ^ k := by
  cases k with
  | zero => exact (Nat.div_one m).symm
  | succ k => rw [shiftRight_succ_eq]

/-- A number is cut off at the unit. -/
theorem roundToInt_positive (m : Nat) (e : Int) :
    roundToInt .positive m e = (m * 2 ^ e.toNat / 2 ^ (-e).toNat : Nat) := by
  have hleft : (e - 0).toNat = e.toNat := by omega
  have hright : (0 - (e - (e.toNat : Int))).toNat = (-e).toNat := by omega
  unfold roundToInt
  dsimp only [decreaseExponent, shiftToExponent, Sign.apply]
  rw [hleft, hright, Nat.shiftLeft_eq]
  exact congrArg Int.ofNat (mantissa_shiftRight _ _)

theorem roundToInt_negative_le (m : Nat) (e : Int) : roundToInt .negative m e ≤ 0 := by
  unfold roundToInt
  dsimp only [Sign.apply]
  omega

theorem toNat_eq (x : Float32) :
    toNat x = min (x.toModel.unpack.toInt 0 (UInt64.size - 1)).toNat (UInt64.size - 1) := by
  show (UInt64.ofNatClamp _).toNat = _
  unfold UInt64.ofNatClamp
  split
  · rename_i h
    exact (Nat.min_eq_left (Nat.le_sub_one_of_lt h)).symm
  · rename_i h
    exact (Nat.min_eq_right (Nat.le_trans (Nat.sub_le _ 1) (Nat.le_of_not_lt h))).symm

/-- What is left of a number of halves. -/
theorem IsHalves.toNat_eq {x : Float32} {n : Nat} (h : IsHalves x n) (hlt : n < 2 ^ 65) :
    toNat x = n / 2 := by
  obtain ⟨m, e, hm, hx, -, he, hmn⟩ := h
  have hdiv : m * 2 ^ e.toNat / 2 ^ (-e).toNat = n / 2 := by
    have hscale : m * 2 ^ e.toNat * 2 ^ (24 - (-e).toNat) = n * 2 ^ 23 := by
      rw [← hmn, Nat.mul_assoc, ← Nat.pow_add]
      congr 2
      omega
    have hunit : 2 ^ (-e).toNat * 2 ^ (24 - (-e).toNat) = 2 * 2 ^ 23 := by
      rw [← Nat.pow_add, Nat.add_sub_cancel' (by omega), Nat.pow_succ']
    rw [← Nat.mul_div_mul_right _ _ (Nat.two_pow_pos (24 - (-e).toNat)), hscale, hunit,
      Nat.mul_div_mul_right _ _ (Nat.two_pow_pos 23)]
  have hint : x.toModel.unpack.toInt 0 (UInt64.size - 1) = (n / 2 : Nat) := by
    rw [hx, ← hdiv]
    exact roundToInt_positive m e
  rw [Scalar.toNat_eq, hint]
  show min (n / 2) (2 ^ 64 - 1) = n / 2
  omega

/-- A positive number of the format that is not above another one is not above it when both are cut off. -/
theorem cutOff_le {m q : Nat} {e f : Int} (hm : m < 2 ^ 24) (he : -149 ≤ e)
    (h : e < f ∧ 2 ^ 23 ≤ q ∨ e = f ∧ m ≤ q) :
    m * 2 ^ e.toNat / 2 ^ (-e).toNat ≤ q * 2 ^ f.toNat / 2 ^ (-f).toNat := by
  -- Both are cut off at the same digit when they are written with the least unit.
  have hunit : ∀ {n : Nat} {g : Int}, -149 ≤ g →
      n * 2 ^ g.toNat / 2 ^ (-g).toNat = n * 2 ^ (g + 149).toNat / 2 ^ 149 := by
    intro n g hg
    rw [← Nat.mul_div_mul_right _ _ (Nat.two_pow_pos (149 - (-g).toNat)), Nat.mul_assoc,
      ← Nat.pow_add, ← Nat.pow_add]
    congr 3 <;> omega
  rw [hunit he, hunit (show -149 ≤ f by omega)]
  refine Nat.div_le_div_right ?_
  obtain ⟨hlt, hq⟩ | ⟨rfl, hle⟩ := h
  · exact Nat.le_of_lt (scaled_lt hm hq (by omega))
  · exact Nat.mul_le_mul_right _ hle

/-- A number that is not above a finite one is not above it when it is cut off. -/
theorem toNat_le_of_not_lt {x y : Float32} (hy : y.isFinite) (h : ¬ y < x) : toNat x ≤ toNat y := by
  rw [lt_iff] at h
  suffices hint : (x.toModel.unpack.toInt 0 (UInt64.size - 1)).toNat ≤
      (y.toModel.unpack.toInt 0 (UInt64.size - 1)).toNat by
    rw [toNat_eq, toNat_eq]
    omega
  -- What is not positive gives 0, and nothing is above infinity.
  cases hx : x.toModel.unpack with
  | notANumber => exact Nat.zero_le _
  | zero s => exact Nat.zero_le _
  | infinity s =>
    cases s with
    | negative => exact Nat.zero_le _
    | positive =>
      obtain ⟨s, hy⟩ | ⟨s, q, f, hq, hy⟩ := cases_of_isFinite hy <;> rw [hx, hy] at h <;> cases s <;>
        exact absurd rfl h
  | finite s m e hm =>
    cases s with
    | negative =>
      show (roundToInt .negative m e).toNat ≤ _
      rw [Int.toNat_of_nonpos (roundToInt_negative_le m e)]
      exact Nat.zero_le _
    | positive =>
      obtain ⟨s, hy⟩ | ⟨_ | _, q, f, hq, hy⟩ := cases_of_isFinite hy <;> rw [hx, hy] at h
      · exact absurd rfl h
      · exact absurd rfl h
      · have hnot : ¬ (compare f e).then (compare q m) = .lt := fun hc => h (congrArg some hc)
        rw [Ordering.then_eq_lt, Int.compare_eq_lt, Int.compare_eq_eq, Nat.compare_eq_lt] at hnot
        obtain ⟨hm, he, -⟩ := digits_of_unpack hx
        obtain ⟨-, -, hq⟩ := digits_of_unpack hy
        rw [hy]
        show (roundToInt .positive m e).toNat ≤ (roundToInt .positive q f).toNat
        rw [roundToInt_positive, roundToInt_positive]
        exact cutOff_le hm he (by omega)

/-! ## One less -/

theorem nearest_pred_nearest_le {n : Nat} (hlt : n < 2 ^ 63) : nearest (nearest n - 1) ≤ 2 ^ 63 := by
  have := nearest_le_two_pow hlt
  exact nearest_le_two_pow (by omega)

/-- A whole number is rounded, and once more when one is taken from it. -/
theorem isHalves_ofNat_sub_one {n : Nat} (hn : 1 < n) (hlt : n < 2 ^ 63) :
    IsHalves (ofNat n - 1) (2 * nearest (nearest n - 1)) := by
  have hleast : 2 ^ 1 ≤ nearest n := two_pow_le_nearest hn
  have hmost := nearest_le_two_pow hlt
  have hsub := (isHalves_ofNat (n := n) (by omega) (by omega)).sub isHalves_one (by omega) (by omega)
  have hdouble : 2 * nearest n - 2 = (nearest n - 1) * 2 ^ 1 := by omega
  rwa [hdouble, nearest_mul_two_pow, Nat.mul_comm] at hsub

theorem isFinite_ofNat_sub_one {n : Nat} (hn : 0 < n) (hlt : n < 2 ^ 63) : (ofNat n - 1).isFinite := by
  obtain rfl | hn := Nat.eq_or_lt_of_le hn
  · decide +kernel
  · exact (isHalves_ofNat_sub_one hn hlt).isFinite

theorem toNat_ofNat_sub_one {n : Nat} (hn : 0 < n) (hlt : n < 2 ^ 63) :
    toNat (ofNat n - 1) = nearest (nearest n - 1) := by
  obtain rfl | hn := Nat.eq_or_lt_of_le hn
  · decide +kernel
  · have := nearest_pred_nearest_le hlt
    rw [(isHalves_ofNat_sub_one hn hlt).toNat_eq (by omega)]
    omega

/-- What is cut off at the last of `n` columns is not beyond it, as far as it is known. -/
theorem toNat_lesser_le {n : Nat} (hn : 0 < n) (hlt : n < 2 ^ 63) (x : Float32) :
    toNat (lesser x (ofNat n - 1)) ≤ nearest (nearest n - 1) := by
  rw [← toNat_ofNat_sub_one hn hlt]
  exact toNat_le_of_not_lt (isFinite_ofNat_sub_one hn hlt) (not_lt_lesser x _)

/-! ## Wide numbers -/

namespace IsHalves

variable {x y : Float32} {n k : Nat}

theorem not_lt (hx : IsHalves x n) (hy : IsHalves y k) (hle : k ≤ n) : ¬ x < y := by
  obtain ⟨m, e, hm, hx, hlog, he, hmn⟩ := hx
  obtain ⟨q, f, hq, hy, hlog', hf, hqk⟩ := hy
  obtain ⟨hleast, -⟩ : 2 ^ 23 ≤ q ∧ q < 2 ^ 24 := (Nat.log2_eq_iff (Nat.ne_of_gt hq)).mp hlog'
  obtain ⟨-, hmost⟩ : 2 ^ 23 ≤ m ∧ m < 2 ^ 24 := (Nat.log2_eq_iff (Nat.ne_of_gt hm)).mp hlog
  rw [lt_iff, hx, hy]
  intro h
  have h : (compare e f).then (compare m q) = .lt := Option.some.inj h
  rw [Ordering.then_eq_lt, Int.compare_eq_lt, Int.compare_eq_eq, Nat.compare_eq_lt] at h
  have hless : m * 2 ^ (e + 24).toNat < q * 2 ^ (f + 24).toNat := by
    obtain hlt | ⟨rfl, hlt⟩ := h
    · exact scaled_lt hmost hleast (by omega)
    · exact Nat.mul_lt_mul_of_pos_right hlt (Nat.two_pow_pos _)
  omega

theorem not_lt_zero (hx : IsHalves x n) : ¬ x < 0 := by
  obtain ⟨m, e, hm, hx, -⟩ := hx
  rw [lt_iff, hx]
  nofun

theorem isNaN (hx : IsHalves x n) : x.isNaN = false := by
  obtain ⟨m, e, hm, hx, -⟩ := hx
  show x.toModel.unpack.isNaN = false
  rw [hx]
  rfl

theorem abs_eq (hx : IsHalves x n) : x.abs = x := by
  have hself := pack_unpack hx.isFinite
  obtain ⟨m, e, hm, hx, -⟩ := hx
  rw [hx] at hself
  show Float32.ofModel (.pack x.toModel.unpack.abs) = x
  rw [hx]
  exact hself

theorem not_abs_lt (hx : IsHalves x n) (hwide : 16777216 ≤ n) : ¬ x.abs < wholeFrom := by
  rw [hx.abs_eq]
  exact hx.not_lt isHalves_wholeFrom hwide

/-- Wide numbers are whole. -/
theorem floor_eq (hx : IsHalves x n) (hwide : 16777216 ≤ n) : floor x = x := by
  rw [floor, if_neg (hx.not_abs_lt hwide)]

@[inherit_doc floor_eq]
theorem ceil_eq (hx : IsHalves x n) (hwide : 16777216 ≤ n) : ceil x = x := by
  rw [ceil, if_neg (hx.not_abs_lt hwide)]

/-- A half is too little to change a wide number. -/
theorem add_half (hx : IsHalves x n) (hround : nearest n = n) (hwide : 33554432 ≤ n) (hsmall : n < 2 ^ 65) :
    x + 0.5 = x := by
  have hadd := hx.add isHalves_half (by omega)
  rw [nearest_succ_of_wide hround hwide] at hadd
  exact hadd.unique hx

theorem sub_half (hx : IsHalves x n) (hround : nearest n = n) (hwide : 33554432 ≤ n) (hsmall : n < 2 ^ 65) :
    x - 0.5 = x := by
  have hsub := hx.sub isHalves_half (by omega) (by omega)
  rw [nearest_pred_of_wide hround hwide] at hsub
  exact hsub.unique hx

end IsHalves

end VectorScene.Scalar
