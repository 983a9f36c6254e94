import VectorScene.Canvas.Coverage
import VectorScene.Proofs.Order
import VectorScene.Proofs.Whole

/-!
# Which pixels are tried

The box of a triangle is found with scalars, and for rows as for columns: `Scalar.Tries` says which of `n` are
tried for a triangle that reaches from one coordinate to another one. None is beyond the last one as it is
computed (`Scalar.Tries.le`), which is rounded twice, and `Scalar.lastInside_iff` tells for which `n` it is one
of the `n`. Where it is, no pixel outside of the raster is tried, whatever the corners of the triangle are
(`Extent.contains_of_mem_tried`). Where it is not, its center is at the very coordinate that was computed for it
(`Scalar.isCenter_last`), since so wide a number is whole and a half does not change it. So it is tried, and a
triangle that is this point covers it and no pixel of the raster (`Extent.exists_covered_beyond`).
-/

namespace VectorScene

namespace Scalar

/-! ## The last of some columns -/

/-- Whether the last of `n` columns or rows, as it is computed, is one of them. The number `n` is rounded, and
rounded again when one is taken from it. Up to 16777216 neither changes anything. Up to 33554432 the last one
is rounded to an even number, and from there on taking one away has no effect, so that only rounding `n` down
helps. -/
def LastInside (n : Nat) : Prop :=
  n ≤ 16777216 ∨ n < 33554432 ∧ (n % 4 = 1 ∨ n % 4 = 2) ∨ 33554432 ≤ n ∧ nearest n < n

instance (n : Nat) : Decidable (LastInside n) := inferInstanceAs (Decidable (_ ∨ _ ∨ _))

theorem lastInside_iff {n : Nat} (hn : 0 < n) : LastInside n ↔ nearest (nearest n - 1) < n := by
  unfold LastInside
  obtain hexact | hexact := Nat.le_total n 16777216
  · rw [nearest_of_le hexact, nearest_of_le (by omega)]
    omega
  obtain hwide | hwide := Nat.lt_or_ge n 33554432
  · have hnear := nearest_of_lt (by omega) hwide
    by_cases hleast : nearest n = 16777216
    · rw [hleast, nearest_of_le (n := 16777216 - 1) (by decide)]
      grind
    · have hpred := nearest_of_lt (n := nearest n - 1) (by grind) (by grind)
      grind
  · have hleast : 2 ^ 25 ≤ nearest n := two_pow_le_nearest hwide
    rw [nearest_pred_of_wide (nearest_nearest n) hleast]
    omega

/-! ## What is tried along one side -/

/-- The first column, or row, whose center is not below a corner. -/
def firstFrom (low : Float32) : Float32 := greater (ceil (low - 0.5)) 0

/-- The last one of `n` whose center is not above a corner. -/
def lastTo (high : Float32) (n : Nat) : Float32 := lesser (floor (high - 0.5)) (ofNat n - 1)

/-- Whether a column, or a row, is tried: it is one of those between the outermost corners of a triangle. -/
def Tries (low high : Float32) (n i : Nat) : Prop :=
  firstFrom low ≤ lastTo high n ∧ toNat (firstFrom low) ≤ i ∧ i ≤ toNat (lastTo high n)

instance (low high : Float32) (n i : Nat) : Decidable (Tries low high n i) :=
  inferInstanceAs (Decidable (_ ∧ _ ∧ _))

theorem Tries.le {low high : Float32} {n i : Nat} (h : Tries low high n i) (hn : 0 < n) (hlt : n < 2 ^ 63) :
    i ≤ nearest (nearest n - 1) :=
  Nat.le_trans h.2.2 (toNat_lesser_le hn hlt _)

theorem Tries.lt {low high : Float32} {n i : Nat} (h : Tries low high n i) (hn : 0 < n) (hlt : n < 2 ^ 63)
    (hinside : LastInside n) : i < n :=
  Nat.lt_of_le_of_lt (h.le hn hlt) ((lastInside_iff hn).mp hinside)

/-- `x` is the coordinate of the center of a column, or a row, and a triangle that is at `x` has it tried, and
none before it. -/
structure IsCenter (x : Float32) (n i : Nat) : Prop where
  isFinite : x.isFinite
  center : ofNat i + 0.5 = x
  tries : Tries x x n i
  first : toNat (firstFrom x) = i

theorem IsCenter.le {x : Float32} {n i j : Nat} (h : IsCenter x n i) (hj : Tries x x n j) : i ≤ j :=
  h.first ▸ hj.2.1

theorem isCenter_half {n : Nat} (hn : 0 < n) (hlt : n < 2 ^ 63) : IsCenter 0.5 n 0 := by
  have hlast : ¬ ofNat n - 1 < 0 := by
    obtain rfl | hn := Nat.eq_or_lt_of_le hn
    · decide +kernel
    · exact (isHalves_ofNat_sub_one hn hlt).not_lt_zero
  have hto : lastTo 0.5 n = 0 := by
    have hfloor : floor (0.5 - 0.5) = 0 := by decide +kernel
    have hnumber : (0 : Float32).isNaN = false := by decide +kernel
    rw [lastTo, hfloor, lesser, hnumber, if_neg Bool.false_ne_true, if_neg hlast]
  have hfrom : firstFrom 0.5 = 0 := by decide +kernel
  have hzero : toNat 0 = 0 := by decide +kernel
  refine ⟨by decide +kernel, by decide +kernel, ?_, by rw [hfrom, hzero]⟩
  rw [Tries, hfrom, hto, hzero]
  exact ⟨by decide +kernel, Nat.le_refl 0, Nat.le_refl 0⟩

/-- A wide number that the last column is computed as is the coordinate of its center. -/
theorem isCenter_of_wide {x : Float32} {n i : Nat} (hx : IsHalves x (2 * i)) (hlast : ofNat n - 1 = x)
    (hround : nearest i = i) (hwide : 16777216 < i) (hsmall : i ≤ 2 ^ 63) : IsCenter x n i := by
  have htwice : nearest (2 * i) = 2 * i := by
    have hshift := nearest_mul_two_pow i 1
    rw [hround] at hshift
    rwa [Nat.mul_comm]
  have hcenter : ofNat i = x := by
    have hnat := isHalves_ofNat (n := i) (by omega) (by omega)
    rw [hround] at hnat
    exact hnat.unique hx
  have hleast : 33554432 ≤ 2 * i := by omega
  have hfrom : firstFrom x = x := by
    rw [firstFrom, hx.sub_half htwice hleast (by omega), hx.ceil_eq (by omega), greater, hx.isNaN,
      if_neg Bool.false_ne_true, if_neg hx.not_lt_zero]
  have hto : lastTo x n = x := by
    rw [lastTo, hx.sub_half htwice hleast (by omega), hx.floor_eq (by omega), hlast]
    simp [lesser]
  have hself : x ≤ x := or_self_iff.mp (le_or_le hx.isFinite hx.isFinite)
  have hwhole : toNat x = i := by rw [hx.toNat_eq (by omega), Nat.mul_div_cancel_left i (by decide)]
  refine ⟨hx.isFinite, ?_, ?_, by rw [hfrom, hwhole]⟩
  · rw [hcenter, hx.add_half htwice hleast (by omega)]
  · rw [Tries, hfrom, hto, hwhole]
    exact ⟨hself, Nat.le_refl i, Nat.le_refl i⟩

/-- If the last of `n` columns, as it is computed, is not one of them, its center is at its own coordinate. -/
theorem isCenter_last {n : Nat} (hn : 0 < n) (hlt : n < 2 ^ 63) (hbeyond : ¬ LastInside n) :
    IsCenter (ofNat n - 1) n (nearest (nearest n - 1)) := by
  have hlast : n ≤ nearest (nearest n - 1) := Nat.not_lt.mp fun h => hbeyond ((lastInside_iff hn).mpr h)
  have hwide : 16777216 < n := Nat.not_le.mp fun h => hbeyond (.inl h)
  exact isCenter_of_wide (isHalves_ofNat_sub_one (by omega) hlt) rfl (nearest_nearest _) (by omega)
    (nearest_pred_nearest_le hlt)

end Scalar

/-! ## Pixels that are tried -/

theorem PixelBox.mem_pixels {b : PixelBox} {x y : Nat} :
    (x, y) ∈ b.pixels ↔ (b.x₀ ≤ x ∧ x ≤ b.x₁) ∧ b.y₀ ≤ y ∧ y ≤ b.y₁ := by
  simp only [pixels, List.mem_flatMap, List.mem_map, List.mem_range'_1, Prod.mk.injEq]
  constructor
  · rintro ⟨_, hy, _, hx, rfl, rfl⟩
    omega
  · rintro ⟨hx, hy⟩
    exact ⟨y, by omega, x, by omega, rfl, rfl⟩

theorem Point.lower_self (p : Point) : p.lower p = p := by
  rw [lower, ite_self, ite_self]

theorem Point.upper_self (p : Point) : p.upper p = p := by
  rw [upper, ite_self, ite_self]

/-- A triangle that is a single point. -/
def Triangle.dot (p : Point) : Triangle := ⟨p, p, p⟩

theorem Triangle.lower_dot (p : Point) : (dot p).lower = p := by
  rw [lower, dot, p.lower_self, p.lower_self]

theorem Triangle.upper_dot (p : Point) : (dot p).upper = p := by
  rw [upper, dot, p.upper_self, p.upper_self]

theorem Triangle.covers_dot {p : Point} (hx : p.x.isFinite) (hy : p.y.isFinite) : (dot p).covers p := by
  have hside : side p p p = 0 := by
    have hsub : p - p = Point.origin := by
      show (⟨p.x - p.x, p.y - p.y⟩ : Point) = _
      rw [Scalar.sub_self hx, Scalar.sub_self hy]
      rfl
    rw [side, hsub]
    decide +kernel
  rw [covers, dot, hside]
  decide +kernel

namespace Extent

open Scalar

/-- The pixels that are tried for a triangle. -/
def tried (e : Extent) (t : Triangle) : List (Nat × Nat) :=
  match e.clip t with
  | some box => box.pixels
  | none => []

theorem covered_eq_filter (e : Extent) (t : Triangle) :
    e.covered t = (e.tried t).filter fun p => t.covers (pixelCenter p.1 p.2) := by
  unfold covered tried
  cases e.clip t <;> rfl

theorem mem_tried_of_mem_covered {e : Extent} {t : Triangle} {p : Nat × Nat} (hp : p ∈ e.covered t) :
    p ∈ e.tried t := by
  rw [covered_eq_filter] at hp
  exact (List.mem_filter.mp hp).1

/-- Columns and rows are clipped in the same way. -/
theorem clip_eq {e : Extent} (hwidth : 0 < e.width) (hheight : 0 < e.height) (t : Triangle) :
    e.clip t =
      if firstFrom t.lower.x ≤ lastTo t.upper.x e.width ∧ firstFrom t.lower.y ≤ lastTo t.upper.y e.height then
        some ⟨toNat (firstFrom t.lower.x), toNat (lastTo t.upper.x e.width),
          toNat (firstFrom t.lower.y), toNat (lastTo t.upper.y e.height)⟩
      else none := by
  unfold clip
  rw [if_neg (by omega)]
  simp only [Bool.and_eq_true, decide_eq_true_eq]
  rfl

theorem mem_tried {e : Extent} {t : Triangle} {x y : Nat} :
    (x, y) ∈ e.tried t ↔ (0 < e.width ∧ 0 < e.height) ∧ Tries t.lower.x t.upper.x e.width x ∧
      Tries t.lower.y t.upper.y e.height y := by
  by_cases hpos : 0 < e.width ∧ 0 < e.height
  · rw [tried, clip_eq hpos.1 hpos.2]
    by_cases hle : firstFrom t.lower.x ≤ lastTo t.upper.x e.width ∧
        firstFrom t.lower.y ≤ lastTo t.upper.y e.height
    · rw [if_pos hle]
      refine PixelBox.mem_pixels.trans ⟨fun h => ⟨hpos, ⟨hle.1, h.1⟩, hle.2, h.2⟩, fun h => ?_⟩
      exact ⟨h.2.1.2, h.2.2.2⟩
    · rw [if_neg hle]
      exact iff_of_false nofun fun h => hle ⟨h.2.1.1, h.2.2.1⟩
  · have hclip : e.clip t = none := if_pos (by omega)
    rw [tried, hclip]
    exact iff_of_false nofun fun h => hpos h.1

/-! ## Pixels of the raster and others -/

/-- Whether a raster has a pixel at a column and a row. -/
def Contains (e : Extent) (p : Nat × Nat) : Prop := p.1 < e.width ∧ p.2 < e.height

instance (e : Extent) (p : Nat × Nat) : Decidable (e.Contains p) := inferInstanceAs (Decidable (_ ∧ _))

variable {e : Extent}

theorem sides_lt (hmemory : e.pixelCount < 2 ^ 63) (hwidth : 0 < e.width) (hheight : 0 < e.height) :
    e.width < 2 ^ 63 ∧ e.height < 2 ^ 63 :=
  ⟨Nat.lt_of_le_of_lt (Nat.le_mul_of_pos_right _ hheight) hmemory,
    Nat.lt_of_le_of_lt (Nat.le_mul_of_pos_left _ hwidth) hmemory⟩

/-- The last column and the last row, as they are computed, are those of the raster, or it has no pixels. -/
def LastInside (e : Extent) : Prop :=
  e.pixelCount = 0 ∨ Scalar.LastInside e.width ∧ Scalar.LastInside e.height

theorem contains_of_mem_tried (hmemory : e.pixelCount < 2 ^ 63) (hinside : e.LastInside) {t : Triangle}
    {p : Nat × Nat} (hp : p ∈ e.tried t) : e.Contains p := by
  obtain ⟨⟨hwidth, hheight⟩, hx, hy⟩ := mem_tried.mp hp
  obtain ⟨hw, hh⟩ := sides_lt hmemory hwidth hheight
  obtain hempty | hinside := hinside
  · exact absurd hempty (Nat.ne_of_gt (Nat.mul_pos hwidth hheight))
  · exact ⟨hx.lt hwidth hw hinside.1, hy.lt hheight hh hinside.2⟩

theorem mem_covered_dot (hwidth : 0 < e.width) (hheight : 0 < e.height) {p : Point} {x y : Nat}
    (hx : IsCenter p.x e.width x) (hy : IsCenter p.y e.height y) : (x, y) ∈ e.covered (.dot p) := by
  have hcenter : pixelCenter x y = p := by rw [pixelCenter, hx.center, hy.center]
  rw [covered_eq_filter, List.mem_filter, mem_tried, Triangle.lower_dot, Triangle.upper_dot, hcenter]
  exact ⟨⟨⟨hwidth, hheight⟩, hx.tries, hy.tries⟩, Triangle.covers_dot hx.isFinite hy.isFinite⟩

theorem le_of_mem_covered_dot {p : Point} {x y : Nat} (hx : IsCenter p.x e.width x)
    (hy : IsCenter p.y e.height y) {q : Nat × Nat} (hq : q ∈ e.covered (.dot p)) : x ≤ q.1 ∧ y ≤ q.2 := by
  obtain ⟨-, htx, hty⟩ := mem_tried.mp (mem_tried_of_mem_covered hq)
  rw [Triangle.lower_dot, Triangle.upper_dot] at htx hty
  exact ⟨hx.le htx, hy.le hty⟩

/-- If the last column or row, as it is computed, is not one of the raster, there is a triangle that covers a
pixel of it, and no pixel of the raster. -/
theorem exists_covered_beyond (hmemory : e.pixelCount < 2 ^ 63) (hbeyond : ¬ e.LastInside) :
    ∃ t, e.covered t ≠ [] ∧ ∀ p ∈ e.covered t, ¬ e.Contains p := by
  rw [LastInside, not_or] at hbeyond
  have hwidth : 0 < e.width := Nat.pos_of_mul_pos_right (Nat.pos_of_ne_zero hbeyond.1)
  have hheight : 0 < e.height := Nat.pos_of_mul_pos_left (Nat.pos_of_ne_zero hbeyond.1)
  obtain ⟨hw, hh⟩ := sides_lt hmemory hwidth hheight
  by_cases hcolumn : Scalar.LastInside e.width
  · have hrow : ¬ Scalar.LastInside e.height := fun h => hbeyond.2 ⟨hcolumn, h⟩
    have hx := isCenter_half hwidth hw
    have hy := isCenter_last hheight hh hrow
    refine ⟨.dot ⟨0.5, ofNat e.height - 1⟩, List.ne_nil_of_mem (mem_covered_dot hwidth hheight hx hy),
      fun p hp h => hrow ((lastInside_iff hheight).mpr ?_)⟩
    exact Nat.lt_of_le_of_lt (le_of_mem_covered_dot hx hy hp).2 h.2
  · have hx := isCenter_last hwidth hw hcolumn
    have hy := isCenter_half hheight hh
    refine ⟨.dot ⟨ofNat e.width - 1, 0.5⟩, List.ne_nil_of_mem (mem_covered_dot hwidth hheight hx hy),
      fun p hp h => hcolumn ((lastInside_iff hwidth).mpr ?_)⟩
    exact Nat.lt_of_le_of_lt (le_of_mem_covered_dot hx hy hp).1 h.1

/-- A triangle in the first row, from column 16777199 on. -/
def beyondFirstRow : Triangle := ⟨⟨16777199, 0⟩, ⟨16777240, 0⟩, ⟨16777240, 1⟩⟩

/-- The last of 16777220 columns is computed as the one behind it. -/
theorem covered_beyondFirstRow : ∀ height ∈ [1, 2],
    (Extent.mk 16777220 height).covered beyondFirstRow = [(16777219, 0), (16777220, 0)] := by
  decide +kernel

end Extent

end VectorScene
