import VectorScene.Proofs.Overflow

/-!
# The identity keeps points

The identity maps a point by multiplications by one and additions of zeros. Both are exact. A number of
the format is already rounded (`Scalar.target_of_unpack`), so its product with one is shifted back to
where it was (`Scalar.roundWithAccuracy_scaled`), and what is packed again are the bits that were
unpacked (`Scalar.pack_unpack`). All that the identity may change is the sign of a zero, so the image
of a point equals the point (`Affine.beq_apply_identity`).
-/

namespace VectorScene

namespace Scalar

open Float.Model UnpackedFloat

/-! ## The bits of a number -/

section Bits

theorem toBitVec_ofBitVec (b : BitVec 1) : (Sign.ofBitVec b).toBitVec = b := by
  revert b
  decide

variable (b : BitVec Format.binary32.numBits)

/-- A number is put together from its parts. -/
theorem packComponents_unpack :
    packComponents .binary32 (.ofBitVec (unpackSign b)) (unpackExponent b) (unpackMantissa b) = b := by
  rw [packComponents, toBitVec_ofBitVec]
  refine BitVec.eq_of_getLsbD_eq fun i hi => ?_
  have hi : i < 32 := hi
  show (((b.extractLsb 31 31).cast rfl ++ (b.extractLsb 30 23).cast rfl : BitVec 9) ++
    (b.extractLsb 22 0).cast rfl : BitVec 32).getLsbD i = b.getLsbD i
  simp only [BitVec.getLsbD_append, BitVec.getLsbD_cast, BitVec.getLsbD_extractLsb]
  by_cases hmantissa : i < 23
  · simp [hmantissa]
  by_cases hexponent : i - 23 < 8
  · have hposition : 23 + (i - 23) = i := by omega
    simp [hmantissa, hexponent, hposition]
  · have hsign : i = 31 := by omega
    subst hsign
    simp

/-- A mantissa with the leading bit that is not stored. -/
theorem toNat_leading (mantissa : BitVec 23) : (1#1 ++ mantissa).toNat = 8388608 + mantissa.toNat := by
  rw [BitVec.toNat_append, ← Nat.shiftLeft_add_eq_or_of_lt mantissa.isLt]
  rfl

/-- Only infinities and NaN have the greatest exponent. -/
theorem unpackExponent_ne_of_isFinite (h : (unpack .binary32 b).isFinite) :
    unpackExponent b ≠ -1#_ := by
  intro hexponent
  unfold UnpackedFloat.unpack at h
  dsimp only at h
  rw [if_pos hexponent] at h
  by_cases hmantissa : unpackMantissa b = 0#_
  · rw [if_pos hmantissa] at h
    cases h
  · rw [if_neg hmantissa] at h
    cases h

/-- A finite number that is unpacked has the exponent 0 and no leading bit, or a greater exponent and
the leading bit. -/
theorem cases_of_unpack {s : Sign} {m : Nat} {e : Int} {hm : 0 < m}
    (h : unpack .binary32 b = .finite s m e hm) :
    s = .ofBitVec (unpackSign b) ∧
      ((unpackExponent b = 0 ∧ m = (unpackMantissa b).toNat ∧ e = -149) ∨
        ((unpackExponent b).toNat ≠ 0 ∧ (unpackExponent b).toNat ≠ 255 ∧
          m = 8388608 + (unpackMantissa b).toNat ∧ e = (unpackExponent b).toNat - 150)) := by
  have hbias : Format.binary32.exponentBias = 127 := by decide
  have hinfinite := unpackExponent_ne_of_isFinite b (by rw [h]; rfl)
  unfold UnpackedFloat.unpack at h
  dsimp only at h
  rw [if_neg hinfinite] at h
  by_cases hexponent : unpackExponent b = 0#_
  · rw [if_pos hexponent] at h
    by_cases hmantissa : unpackMantissa b = 0#_
    · rw [dif_pos hmantissa] at h
      cases h
    · rw [dif_neg hmantissa] at h
      cases h
      exact ⟨rfl, .inl ⟨hexponent, rfl, by rw [hexponent, hbias]; rfl⟩⟩
  · rw [if_neg hexponent] at h
    cases h
    refine ⟨rfl, .inr ⟨fun h0 => hexponent (BitVec.eq_of_toNat_eq h0),
      fun h255 => hinfinite (BitVec.eq_of_toNat_eq h255), toNat_leading _, ?_⟩⟩
    rw [hbias]
    omega

variable {b} {s : Sign} {m : Nat} {e : Int} {hm : 0 < m}

/-- A finite number of the format is rounded. -/
theorem target_of_unpack (h : unpack .binary32 b = .finite s m e hm) :
    Format.binary32.targetExponent (totalExponent m e) = e := by
  have hmantissa : (unpackMantissa b).toNat < 8388608 := (unpackMantissa b).isLt
  have hmin : Format.binary32.minExponent = -149 := by decide
  have hbits : Format.binary32.mantissaBits = 24 := by decide
  simp only [Format.targetExponent, totalExponent, hmin, hbits]
  obtain ⟨-, ⟨-, rfl, rfl⟩ | ⟨hzero, -, rfl, rfl⟩⟩ := cases_of_unpack b h
  · have hlog : (unpackMantissa b).toNat.log2 < 23 := (Nat.log2_lt (Nat.ne_of_gt hm)).mpr hmantissa
    omega
  · have hlog : (8388608 + (unpackMantissa b).toNat).log2 = 23 := by
      rw [Nat.log2_eq_iff (by omega)]
      omega
    omega

/-- Packing a finite number again gives the bits that it had. -/
theorem pack_of_unpack (h : unpack .binary32 b = .finite s m e hm) :
    pack .binary32 (.finite s m e hm) = b := by
  have hmantissa : (unpackMantissa b).toNat < 8388608 := (unpackMantissa b).isLt
  have hexponent : (unpackExponent b).toNat < 256 := (unpackExponent b).isLt
  have hbias : Format.binary32.exponentBias = 127 := by decide
  have hbits : Format.binary32.mantissaBits = 24 := by decide
  have hparts := packComponents_unpack b
  unfold UnpackedFloat.pack
  dsimp only
  rw [hbias, hbits]
  obtain ⟨rfl, ⟨hzero, rfl, rfl⟩ | ⟨hzero, hinfinite, rfl, rfl⟩⟩ := cases_of_unpack b h
  · have hlog : (unpackMantissa b).toNat.log2 < 23 := (Nat.log2_lt (Nat.ne_of_gt hm)).mpr hmantissa
    rw [hzero] at hparts
    rw [if_neg (by decide), if_neg (by omega), BitVec.ofNat_toNat, BitVec.setWidth_eq]
    exact hparts
  · have hlog : (8388608 + (unpackMantissa b).toNat).log2 = 23 := by
      rw [Nat.log2_eq_iff (by omega)]
      omega
    have hstored : (((unpackExponent b).toNat : Int) - 150 + (127 : Nat) + (23 : Nat)).toNat =
        (unpackExponent b).toNat := by omega
    have hleading : BitVec.ofNat 23 (8388608 + (unpackMantissa b).toNat) = unpackMantissa b := by
      refine BitVec.eq_of_toNat_eq ?_
      rw [BitVec.toNat_ofNat]
      omega
    rw [hstored, hleading, BitVec.ofNat_toNat, BitVec.setWidth_eq, hlog,
      if_neg (show ¬ 256 ≤ _ by omega), if_pos rfl]
    exact hparts

theorem packedZero_of_unpack (h : unpack .binary32 b = .zero s) : packedZero .binary32 s = b := by
  have hparts := packComponents_unpack b
  have hinfinite := unpackExponent_ne_of_isFinite b (by rw [h]; rfl)
  unfold UnpackedFloat.unpack at h
  dsimp only at h
  rw [if_neg hinfinite] at h
  by_cases hexponent : unpackExponent b = 0#_
  · rw [if_pos hexponent] at h
    by_cases hmantissa : unpackMantissa b = 0#_
    · rw [dif_pos hmantissa] at h
      cases h
      rw [hexponent, hmantissa] at hparts
      exact hparts
    · rw [dif_neg hmantissa] at h
      cases h
  · rw [if_neg hexponent] at h
    cases h

end Bits

/-- Packing the finite number that is unpacked gives it back. -/
theorem pack_unpack {x : Float32} (h : x.isFinite) : Float32.ofModel (.pack x.toModel.unpack) = x := by
  have hbits : pack .binary32 x.toModel.unpack = x.toModel.toBits.toBitVec := by
    obtain ⟨s, hx⟩ | ⟨s, m, e, hm, hx⟩ := cases_of_isFinite h <;> rw [hx]
    · exact packedZero_of_unpack hx
    · exact pack_of_unpack hx
  obtain ⟨⟨bits, valid⟩⟩ := x
  have hword : UInt32.ofBitVec (pack .binary32 (unpack .binary32 bits.toBitVec)) = bits :=
    congrArg UInt32.ofBitVec hbits
  exact congrArg Float32.ofModel ((Float32.Model.mk.injEq _ _ _ _).mpr hword)

/-! ## One and zero -/

theorem log2_shiftLeft {m : Nat} (hm : m ≠ 0) (k : Nat) : (m <<< k).log2 = m.log2 + k := by
  induction k with
  | zero => rfl
  | succ k ih =>
    have hne : m <<< k ≠ 0 := by
      rw [Nat.shiftLeft_eq]
      exact Nat.mul_ne_zero hm (Nat.ne_of_gt (Nat.two_pow_pos k))
    rw [Nat.shiftLeft_succ, Nat.log2_two_mul hne, ih, Nat.add_assoc]

/-- Zeros at the end of a mantissa are shifted out without a trace. -/
theorem shiftLeft_shiftRight (m k : Nat) :
    ExtendedMantissa.mk (m <<< k) false false >>> k = ⟨m, false, false⟩ := by
  induction k generalizing m with
  | zero => rfl
  | succ k ih =>
    have hone : (ExtendedMantissa.mk (2 * m) false false).shiftRightOne = ⟨m, false, false⟩ := by
      simp [ExtendedMantissa.shiftRightOne]
    rw [Nat.shiftLeft_succ_inside, ← hone, ← ih (2 * m)]
    rfl

section Rounding

variable {m : Nat} {e : Int} (hm : 0 < m)
  (htarget : Format.binary32.targetExponent (totalExponent m e) = e)
include hm htarget

/-- A rounded number that is written with more bits is shifted back. -/
theorem shiftToTargetExponent_scaled (k : Nat) :
    shiftToTargetExponent .binary32 (m <<< k) (e - k) .exact = (⟨m, false, false⟩, e) := by
  have htotal : totalExponent (m <<< k) (e - k) = totalExponent m e := by
    rw [totalExponent, totalExponent, log2_shiftLeft (Nat.ne_of_gt hm)]
    omega
  have hamount : (e - (e - k)).toNat = k := by omega
  have hexponent : e - k + k = e := by omega
  rw [shiftToTargetExponent, htotal, htarget]
  simp only [shiftToExponent, hamount, hexponent, ExtendedMantissa.ofMantissaAndAccuracy,
    shiftLeft_shiftRight]

/-- A rounded number that is written with more bits is rounded to itself. -/
theorem roundWithAccuracy_scaled (s : Sign) (k : Nat) :
    roundWithAccuracy .binary32 s (m <<< k) (e - k) .exact = .finite s m e hm := by
  have hagain : shiftToTargetExponent .binary32 m e .exact = (⟨m, false, false⟩, e) := by
    simpa using shiftToTargetExponent_scaled hm htarget 0
  have hrounded : (ExtendedMantissa.mk m false false).roundedMantissa = m := rfl
  unfold roundWithAccuracy
  rw [shiftToTargetExponent_scaled hm htarget k]
  dsimp only
  rw [hrounded, hagain]
  exact dif_neg (Nat.ne_of_gt hm)

end Rounding

theorem mul_one {x : Float32} (h : x.isFinite) : x * 1 = x := by
  have hproduct : UnpackedFloat.mul .binary32 x.toModel.unpack (1 : Float32).toModel.unpack =
      x.toModel.unpack := by
    rw [unpack_one]
    obtain ⟨s, hx⟩ | ⟨s, m, e, hm, hx⟩ := cases_of_isFinite h <;> rw [hx]
    · cases s <;> rfl
    · have hsign : s * .positive = s := by cases s <;> rfl
      have hbits : m * 8388608 = m <<< 23 := (Nat.shiftLeft_eq m 23).symm
      show roundWithAccuracy .binary32 (s * .positive) (m * 8388608) (e + -23) .exact = _
      rw [hsign, hbits]
      exact roundWithAccuracy_scaled hm (target_of_unpack hx) s 23
  calc x * 1 = .ofModel (.pack (.mul .binary32 x.toModel.unpack (1 : Float32).toModel.unpack)) := rfl
    _ = x := by rw [hproduct, pack_unpack h]

theorem unpack_pack_zero (s : Sign) : (Float32.Model.pack (.zero s)).unpack = .zero s := by
  cases s <;> rfl

theorem mul_zero_beq {x : Float32} (h : x.isFinite) : x * 0 == 0 := by
  obtain ⟨s, hproduct⟩ : ∃ s, UnpackedFloat.mul .binary32 x.toModel.unpack (.zero .positive) = .zero s := by
    obtain ⟨s, hx⟩ | ⟨s, m, e, hm, hx⟩ := cases_of_isFinite h <;> exact ⟨s * .positive, by rw [hx]; rfl⟩
  refine beq_zero_iff.mpr ⟨s, ?_⟩
  show (Float32.Model.pack (.mul .binary32 x.toModel.unpack (.zero .positive))).unpack = .zero s
  rw [hproduct, unpack_pack_zero]

/-- Adding a zero on either side changes at most the sign of a zero. -/
theorem add_zero_beq {x z : Float32} (hx : x.isFinite) (hz : z == 0) : x + z == x ∧ z + x == x := by
  obtain ⟨t, hz⟩ := beq_zero_iff.mp hz
  have hright : x + z = .ofModel (.pack (.add .binary32 x.toModel.unpack (.zero t))) := by
    rw [← hz]
    rfl
  have hleft : z + x = .ofModel (.pack (.add .binary32 (.zero t) x.toModel.unpack)) := by
    rw [← hz]
    rfl
  obtain ⟨s, hu⟩ | ⟨s, m, e, hm, hu⟩ := cases_of_isFinite hx
  · have hzero : ∀ u, (∃ r, u = UnpackedFloat.zero r) → Float32.ofModel (.pack u) == x := by
      rintro _ ⟨r, rfl⟩
      exact beq_iff.mpr (.inr ⟨r, s, unpack_pack_zero r, hu⟩)
    rw [hright, hleft, hu]
    constructor <;> apply hzero <;> cases s <;> cases t <;> exact ⟨_, rfl⟩
  · have hself : Float32.ofModel (.pack (.finite s m e hm)) = x := hu ▸ pack_unpack hx
    rw [hright, hleft, hu]
    exact ⟨hself.symm ▸ beq_self hx, hself.symm ▸ beq_self hx⟩

/-- What the identity makes of a coordinate: its product with one, and zeros added on either side. -/
theorem keep_beq {x y : Float32} (hx : x.isFinite) (hy : y.isFinite) :
    x * 1 + y * 0 + 0 == x ∧ y * 0 + x * 1 + 0 == x := by
  have hzero : (0 : Float32) == 0 := by decide
  obtain ⟨hright, hleft⟩ := add_zero_beq hx (mul_zero_beq hy)
  rw [mul_one hx]
  exact ⟨beq_trans (add_zero_beq (isFinite_of_beq hright hx) hzero).1 hright,
    beq_trans (add_zero_beq (isFinite_of_beq hleft hx) hzero).1 hleft⟩

end Scalar

namespace Affine

variable {p : Point} (h : p.isFinite)
include h

/-- The identity keeps a point, up to the signs of its zeros. -/
theorem beq_apply_identity : p == identity.apply p := by
  obtain ⟨hx, hy⟩ := Bool.and_eq_true_iff.mp h
  exact Bool.and_eq_true_iff.mpr
    ⟨Scalar.beq_symm (Scalar.keep_beq hx hy).1, Scalar.beq_symm (Scalar.keep_beq hy hx).2⟩

theorem isFinite_apply_identity : (identity.apply p).isFinite := by
  obtain ⟨hx, hy⟩ := Bool.and_eq_true_iff.mp h
  exact Bool.and_eq_true_iff.mpr ⟨Scalar.isFinite_of_beq (Scalar.keep_beq hx hy).1 hx,
    Scalar.isFinite_of_beq (Scalar.keep_beq hy hx).2 hy⟩

end Affine

end VectorScene
