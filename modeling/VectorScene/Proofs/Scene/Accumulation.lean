import VectorScene.Proofs.Scene.Union

/-!
# Transforms applied one after the other

A scene whose root is no transform never has more than one above it, however many are applied to it.
`Affine.accumulate` says what one more does to the transform that stands there: it is composed with
it, and if the composition is near the identity, nothing is left of either.

* `Over.transformAll`: the scene after a run of transforms is the one at the start, below the transform
  that the run accumulates to;
* `foldl_accumulate`: as long as no composition comes near the identity, that is the composition of
  the whole run;
* `flattened_transform_transform`: two transforms are one, their composition, unless that is near the
  identity without being exact; then the scene is as it was (`flatten_nudged_twice`).
-/

namespace VectorScene

variable {σ : Type}

namespace Affine

/-- The transform above a scene when `m` is applied; `none` stands for no transform. -/
def accumulate (above : Option Affine) (m : Affine) : Option Affine :=
  if m == identity then above
  else
    match above with
    | none => some m
    | some c => if (compose m c).isNearIdentity then none else some (compose m c)

/-- A transform composed with those that are applied after it, one after the other. -/
def composeAll (first : Affine) (later : List Affine) : Affine :=
  later.foldl (fun done m => compose m done) first

theorem accumulate_none {m : Affine} (hm : (m == identity) = false) :
    accumulate none m = some m := by
  unfold accumulate
  rw [hm]
  rfl

theorem accumulate_some {m : Affine} (hm : (m == identity) = false) (c : Affine) :
    accumulate (some c) m =
      if (compose m c).isNearIdentity then none else some (compose m c) := by
  unfold accumulate
  rw [hm]
  rfl

/-- Nothing is lost of a run of which no composition comes near the identity. -/
theorem foldl_accumulate {first : Affine} {later : List Affine}
    (hexact : ∀ m ∈ later, (m == identity) = false)
    (hfar : ∀ k < later.length, (composeAll first (later.take (k + 1))).isNearIdentity = false) :
    later.foldl accumulate (some first) = some (composeAll first later) := by
  induction later generalizing first with
  | nil => rfl
  | cons m later ih =>
    obtain ⟨hm, hexact⟩ := List.forall_mem_cons.mp hexact
    have hfirst : (compose m first).isNearIdentity = false := hfar 0 (Nat.zero_lt_succ _)
    rw [List.foldl_cons, accumulate_some hm, hfirst]
    exact ih hexact fun k hk => hfar (k + 1) (Nat.succ_lt_succ hk)

theorem beq_identity_of_far {m : Affine} (h : m.isNearIdentity = false) :
    (m == identity) = false := by
  rw [Bool.eq_false_iff]
  intro hidentity
  rw [isNearIdentity_of_beq hidentity] at h
  cases h

/-- The composition of such a run is no identity, so it is applied as it is. -/
theorem accumulate_composeAll {first : Affine} (hfirst : (first == identity) = false)
    {later : List Affine}
    (hfar : ∀ k < later.length, (composeAll first (later.take (k + 1))).isNearIdentity = false) :
    accumulate none (composeAll first later) = some (composeAll first later) := by
  apply accumulate_none
  cases hlength : later.length with
  | zero =>
    rw [List.length_eq_zero_iff.mp hlength]
    exact hfirst
  | succ k =>
    have hlast := hfar k (by omega)
    rw [← hlength, List.take_length] at hlast
    exact beq_identity_of_far hlast

end Affine

namespace Scene

/-! ## What stands above a scene -/

/-- A scene with `inner` at its root, or with one transform there and `inner` below it. -/
inductive Over (inner : Scene) : Option Affine → Scene → Prop where
  | bare : Over inner none inner
  | under (stamp : Nat) (m : Affine) : Over inner (some m) (transformed stamp m inner)

/-- Applies all transforms, the first one first. -/
def transformAll (ms : List Affine) (s : Scene) : Build Scene :=
  ms.foldlM (fun s m => s.transform m) s

namespace Over

variable {inner s : Scene} {above : Option Affine}

theorem eq_inner (h : Over inner none s) : s = inner := by
  cases h
  rfl

theorem placed (h : Over inner above s) (outer : Affine) :
    s.placed outer = inner.placed (above.elim outer (Affine.compose outer)) := by
  cases h with
  | bare => rfl
  | under stamp m => rfl

theorem transform (hne : inner ≠ empty) (ht : inner.isTransformed = false) (h : Over inner above s)
    (m : Affine) (stamp : Nat) :
    Over inner (Affine.accumulate above m) ((s.transform m).run stamp).1 := by
  cases hm : m == Affine.identity with
  | true =>
    have hkeep : Affine.accumulate above m = above := if_pos hm
    rw [run_transform_identity hm, hkeep]
    exact h
  | false =>
    cases h with
    | bare =>
      rw [run_transform hm hne ht, Affine.accumulate_none hm]
      exact under stamp m
    | under old c =>
      rw [run_transform_transformed hm, Affine.accumulate_some hm]
      split
      · exact bare
      · exact under stamp (Affine.compose m c)

/-- What stands above a scene after a run of transforms is what they accumulate to. -/
theorem transformAll (hne : inner ≠ empty) (ht : inner.isTransformed = false)
    (h : Over inner above s) (ms : List Affine) (stamp : Nat) :
    Over inner (ms.foldl Affine.accumulate above) ((s.transformAll ms).run stamp).1 := by
  induction ms generalizing above s stamp with
  | nil => exact h
  | cons m ms ih => exact ih (h.transform hne ht m stamp) ((s.transform m).run stamp).2

end Over

theorem run_transformAll_empty (ms : List Affine) (stamp : Nat) :
    (empty.transformAll ms).run stamp = (empty, stamp) := by
  induction ms with
  | nil => rfl
  | cons m ms ih =>
    have hstep : (empty.transformAll (m :: ms)).run stamp =
        (((empty.transform m).run stamp).1.transformAll ms).run ((empty.transform m).run stamp).2 :=
      rfl
    rw [hstep, run_transform_empty]
    exact ih

/-- The items of a scene after a run of transforms. -/
theorem placed_transformAll {s : Scene} (hs : s.isTransformed = false) (ms : List Affine) (stamp : Nat)
    (outer : Affine) :
    ((s.transformAll ms).run stamp).1.placed outer =
      s.placed ((ms.foldl Affine.accumulate none).elim outer (Affine.compose outer)) := by
  by_cases hne : s = empty
  · rw [hne, run_transformAll_empty]
    rfl
  · exact (Over.bare.transformAll hne hs ms stamp).placed outer

/-- Runs that accumulate to the same transform are flattened alike. -/
theorem flattened_transformAll_congr {s : Scene} (hs : s.isTransformed = false) {ms ns : List Affine}
    (h : ms.foldl Affine.accumulate none = ns.foldl Affine.accumulate none) (text : TextProvider σ)
    (stamp stamp' : Nat) :
    ((s.transformAll ms).run stamp).1.flattened text =
      ((s.transformAll ns).run stamp').1.flattened text := by
  apply flattened_congr
  rw [placed_transformAll hs, placed_transformAll hs, h]

/-- Two transforms, neither of them the exact identity, are flattened as their composition is, unless
that is near the identity without being exact: then nothing is left of them. So transforms add up as
long as no composition comes near the identity. -/
theorem flattened_transform_transform {m₁ m₂ : Affine} (h₁ : (m₁ == Affine.identity) = false)
    (h₂ : (m₂ == Affine.identity) = false) {s : Scene} (hs : s.isTransformed = false)
    (text : TextProvider σ) (stamp stamp' : Nat) :
    let both := Affine.compose m₁ m₂
    let twice := ((do (← s.transform m₂).transform m₁ : Build Scene).run stamp).1
    ((both.isNearIdentity → both == Affine.identity) →
      twice.flattened text = ((s.transform both).run stamp').1.flattened text) ∧
    (both.isNearIdentity → twice = s) ∧
    ∀ later : List Affine, (∀ m ∈ later, (m == Affine.identity) = false) →
      (∀ k < later.length,
        (Affine.composeAll m₂ (later.take (k + 1))).isNearIdentity = false) →
      ((s.transformAll (m₂ :: later)).run stamp).1.flattened text =
        ((s.transform (Affine.composeAll m₂ later)).run stamp').1.flattened text := by
  intro both twice
  have hpair : [m₂, m₁].foldl Affine.accumulate none =
      if both.isNearIdentity then none else some both := by
    rw [List.foldl_cons, Affine.accumulate_none h₂]
    exact Affine.accumulate_some h₁ m₂
  refine ⟨fun hboth => ?_, fun hnear => ?_, fun later hexact hfar => ?_⟩
  · have hsame : [m₂, m₁].foldl Affine.accumulate none = [both].foldl Affine.accumulate none := by
      rw [hpair]
      cases hnear : both.isNearIdentity with
      | true => exact (if_pos (hboth hnear)).symm
      | false => exact (Affine.accumulate_none (Affine.beq_identity_of_far hnear)).symm
    exact flattened_transformAll_congr hs hsame text stamp stamp'
  · by_cases hne : s = empty
    · show ((s.transformAll [m₂, m₁]).run stamp).1 = s
      rw [hne, run_transformAll_empty]
    · have hover : Over s ([m₂, m₁].foldl Affine.accumulate none) twice :=
        Over.bare.transformAll hne hs [m₂, m₁] stamp
      rw [hpair, if_pos hnear] at hover
      exact hover.eq_inner
  · have hsame : (m₂ :: later).foldl Affine.accumulate none =
        [Affine.composeAll m₂ later].foldl Affine.accumulate none := by
      rw [List.foldl_cons, Affine.accumulate_none h₂, Affine.foldl_accumulate hexact hfar]
      exact (Affine.accumulate_composeAll h₂ hfar).symm
    exact flattened_transformAll_congr hs hsame text stamp stamp'

/-- A line from the origin to (1, 0). -/
def bar : Scene := item 0 (.shape (.fill Color.red) (.line Point.origin ⟨1, 0⟩))

/-- Two bars, the second one above the first one. -/
def bars : Scene := union 2 bar (transformed 1 (Affine.translation 0 1) bar)

theorem flattened_bars :
    let shift := Affine.translation 3 0
    let grow := Affine.scale 2 2
    let twice := ((do (← bars.transform grow).transform shift : Build Scene).run 3).1
    (shift == Affine.identity) = false ∧ (grow == Affine.identity) = false ∧
      bars.isTransformed = false ∧ (Affine.compose shift grow).isNearIdentity = false ∧
      twice.flattened (.unavailable : TextProvider Unit) =
        ((bars.transform (Affine.compose shift grow)).run 3).1.flattened .unavailable ∧
      ((bars.transformAll [grow, shift, grow]).run 3).1.flattened (.unavailable : TextProvider Unit) =
        ((bars.transform (Affine.composeAll grow [shift, grow])).run 3).1.flattened .unavailable := by
  intro shift grow twice
  have hshift : (shift == Affine.identity) = false := by decide +kernel
  have hgrow : (grow == Affine.identity) = false := by decide +kernel
  have hfar : (Affine.compose shift grow).isNearIdentity = false := by decide +kernel
  have hexact : ∀ m ∈ [shift, grow], (m == Affine.identity) = false := by decide +kernel
  have hall : ∀ k < [shift, grow].length,
      (Affine.composeAll grow ([shift, grow].take (k + 1))).isNearIdentity = false := by
    decide +kernel
  obtain ⟨hpair, -, hrun⟩ :=
    flattened_transform_transform hshift hgrow (s := bars) rfl TextProvider.unavailable 3 3
  refine ⟨hshift, hgrow, rfl, hfar, hpair fun hnear => ?_, hrun [shift, grow] hexact hall⟩
  rw [hfar] at hnear
  cases hnear

/-- A movement of less than the tolerance for translations. -/
def nudge : Affine := Affine.translation 1e-5 0

/-- Two nudges of a scene are lost, and one that is as far as both is not. -/
theorem flatten_nudged_twice :
    (nudge == Affine.identity) = false ∧ bar.isTransformed = false ∧
      (((do (← bar.transform nudge).transform nudge : Build Scene).run 1).1.flatten
        (.unavailable : TextProvider Unit) ()).result ≠
      (((bar.transform (Affine.compose nudge nudge)).run 1).1.flatten .unavailable ()).result := by
  refine ⟨by decide +kernel, rfl, fun h => ?_⟩
  exact absurd (congrArg Except.toOption h) (by decide +kernel)

end Scene

end VectorScene
