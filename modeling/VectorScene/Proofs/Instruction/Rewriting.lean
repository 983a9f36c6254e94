import VectorScene.Proofs.Instruction.Frame

/-!
# Rewriting instructions

A place in a larger instruction hands a pen to the instruction that stands there, and sees of it no
more than the pen that it leaves or the error with which it fails. So two instructions that advance
every pen alike can be exchanged in every place (`advance_fill_congr`), and the path that is
constructed stays the same, or the error does (`Interchangeable`).

The laws are equations between such functions on pens: running in turn is associative and `empty` is
its unit, `combine` and `sequence` run in turn, and of two frames around an instruction, or two
transforms that are set one after the other, only the last one counts. A frame can be given to each of
two parts of its body if the first part sets no transform (`advance_within_seq`), because then it
leaves the transform that it has found (`transform_of_advance`).
-/

namespace VectorScene

namespace Instruction

/-- In no place does it matter which of the two instructions stands there. -/
def Interchangeable (x y : Instruction) : Prop :=
  ∀ c : Context, (c.fill x).construct = (c.fill y).construct

/-! ## Places -/

/-- A place makes no difference between instructions that advance every pen alike. -/
theorem advance_fill_congr {x y : Instruction} (h : x.advance = y.advance) (c : Context) :
    (c.fill x).advance = (c.fill y).advance := by
  induction c generalizing x y with
  | top => exact h
  | before c second ih =>
    apply ih
    funext pen
    rw [advance_seq, advance_seq, h]
  | after c first ih =>
    apply ih
    funext pen
    rw [advance_seq, advance_seq, h]
  | inside c m ih =>
    apply ih
    funext pen
    rw [advance_within, advance_within, h]

theorem Interchangeable.of_advance {x y : Instruction} (h : x.advance = y.advance) :
    Interchangeable x y := by
  intro c
  rw [construct_eq_advance, construct_eq_advance, advance_fill_congr h c]

/-! ## Running in turn -/

theorem advance_seq_assoc (a b c : Instruction) :
    (seq (seq a b) c).advance = (seq a (seq b c)).advance := by
  funext pen
  rw [advance_seq, advance_seq, advance_seq, bind_assoc]
  exact bind_congr fun pen => (advance_seq b c pen).symm

theorem advance_empty_seq (a : Instruction) : (seq empty a).advance = a.advance := by
  funext pen
  rw [advance_seq, advance_empty]
  rfl

theorem advance_seq_empty (a : Instruction) : (seq a empty).advance = a.advance := by
  funext pen
  rw [advance_seq]
  exact bind_pure (a.advance pen)

theorem advance_seq_eq_combine (a b : Instruction) :
    (seq a b).advance = (combine a b).advance := by
  funext pen
  rw [advance_seq, advance_combine]

theorem advance_sequence_append (is js : List Instruction) :
    (sequence (is ++ js)).advance = (combine (sequence is) (sequence js)).advance := by
  funext pen
  rw [advance_combine, advance_sequence, advance_sequence, List.foldlM_append]
  exact bind_congr fun pen => (advance_sequence js pen).symm

/-! ## Frames -/

theorem advance_setTransform (m : Affine) (pen : Pen) :
    (act (.setTransform m)).advance pen = .ok (pen.inFrame m) :=
  advance_act (.setTransform m) pen

/-- Of two transforms that are set one after the other, the second one counts. -/
theorem advance_setTransform_seq (m n : Affine) :
    (seq (act (.setTransform m)) (act (.setTransform n))).advance =
      (act (.setTransform n)).advance := by
  funext pen
  rw [advance_seq, advance_setTransform, advance_setTransform]
  exact advance_setTransform n (pen.inFrame m)

theorem advance_within_empty (m : Affine) : (within m empty).advance = empty.advance := by
  funext pen
  rw [advance_within]
  rfl

/-- Of two frames around an instruction, the inner one counts. -/
theorem advance_within_within (m n : Affine) (a : Instruction) :
    (within m (within n a)).advance = (within n a).advance := by
  funext pen
  rw [advance_within, advance_within, advance_within, Pen.inFrame_inFrame]
  cases a.advance (pen.inFrame n) <;> rfl

/-- The transform that an instruction leaves: the last one that it sets outside of all frames in it,
or the one that it has found. -/
theorem transform_of_advance {a : Instruction} {pen pen' : Pen} (h : a.advance pen = .ok pen') :
    pen'.transform = a.sets.getLast?.getD pen.transform := by
  -- Seen from the body of a frame, the transform of the pen is that frame.
  let c := Context.top.inside pen.transform
  have hrun : a.advance pen =
      (drawAll (a.occurrences c) pen).map fun drawn => drawn.inFrame (c.after a).frame :=
    advance_eq_drawAll a c pen
  rw [hrun] at h
  cases hdrawn : drawAll (a.occurrences c) pen with
  | error e => rw [hdrawn] at h; cases h
  | ok drawn =>
    rw [hdrawn] at h
    cases h
    exact c.frame_after a

/-- A frame can be given to each of two parts, if the first one sets no transform for the second. -/
theorem advance_within_seq {a : Instruction} (ha : a.sets = []) (m : Affine) (b : Instruction) :
    (within m (seq a b)).advance = (seq (within m a) (within m b)).advance := by
  funext pen
  rw [advance_within, advance_seq, advance_seq, advance_within]
  cases h : a.advance (pen.inFrame m) with
  | error e => rfl
  | ok inner =>
    have hinner : inner.transform = m := by
      rw [transform_of_advance h, ha]
      rfl
    have hback : (inner.inFrame pen.transform).inFrame m = inner := by
      rw [Pen.inFrame_inFrame, ← hinner, Pen.inFrame_transform]
    show (b.advance inner).map _ = (within m b).advance (inner.inFrame pen.transform)
    rw [advance_within, hback]
    rfl

/-! ## The laws -/

/-- Wherever they stand, these instructions can be exchanged: the same path is constructed, or the same
error is given. -/
theorem interchangeable_laws (m n : Affine) (a b c : Instruction) (is js : List Instruction) :
    Interchangeable (seq (seq a b) c) (seq a (seq b c)) ∧
    Interchangeable (seq empty a) a ∧
    Interchangeable (seq a empty) a ∧
    Interchangeable (seq a b) (combine a b) ∧
    Interchangeable (within m empty) empty ∧
    Interchangeable (within m (within n a)) (within n a) ∧
    Interchangeable (seq (act (.setTransform m)) (act (.setTransform n))) (act (.setTransform n)) ∧
    (a.sets = [] →
      Interchangeable (within m (seq a b)) (seq (within m a) (within m b))) ∧
    Interchangeable (sequence (is ++ js)) (combine (sequence is) (sequence js)) :=
  ⟨.of_advance (advance_seq_assoc a b c),
    .of_advance (advance_empty_seq a),
    .of_advance (advance_seq_empty a),
    .of_advance (advance_seq_eq_combine a b),
    .of_advance (advance_within_empty m),
    .of_advance (advance_within_within m n a),
    .of_advance (advance_setTransform_seq m n),
    fun ha => .of_advance (advance_within_seq ha m b),
    .of_advance (advance_sequence_append is js)⟩

/-- Draws from a point that is scaled within a frame of its own. -/
def scaledStart : Instruction :=
  within (Affine.translation 1 0) (seq (act (.setTransform (Affine.scale 2 2))) (moveTo ⟨1, 1⟩))

theorem interchangeable_scaledStart :
    scaledStart.sets = [] ∧
      Interchangeable (within (Affine.scale 3 3) (seq scaledStart (lineTo ⟨1, 0⟩)))
        (seq (within (Affine.scale 3 3) scaledStart) (within (Affine.scale 3 3) (lineTo ⟨1, 0⟩))) := by
  have hsets : scaledStart.sets = [] := rfl
  obtain ⟨-, -, -, -, -, -, -, hsplit, -⟩ := interchangeable_laws (Affine.scale 3 3) Affine.identity
    scaledStart (lineTo ⟨1, 0⟩) empty [] []
  exact ⟨hsets, hsplit hsets⟩

/-- A transform that the first part sets outside of its frames would be lost to the second part. -/
example :
    let enlarge := act (.setTransform (Affine.scale 2 2))
    (within (Affine.scale 3 3) (seq enlarge (lineTo ⟨1, 0⟩))).construct.toOption ≠
      (seq (within (Affine.scale 3 3) enlarge)
        (within (Affine.scale 3 3) (lineTo ⟨1, 0⟩))).construct.toOption := by
  decide +kernel

end Instruction

end VectorScene
