import VectorScene.Proofs.Pen.Placing

/-!
# The transform of a pen

The transform of a pen takes part in the placing of points only. `Pen.marked_inFrame` says so of the
marks that draw or end figures: they neither read nor change the transform.
-/

namespace VectorScene

/-- The transform that an action sets; all actions that set none draw or end figures. -/
def PenAction.frame? : PenAction → Option Affine
  | setTransform m => some m
  | _ => none

theorem PenAction.frame?_eq_some_iff {a : PenAction} {m : Affine} :
    a.frame? = some m ↔ a = setTransform m := by
  cases a <;> simp [frame?]

/-- Whether the mark is one of an action that draws or ends figures. -/
def PenMark.IsDrawn : PenMark → Prop
  | setTransform _ => False
  | _ => True

theorem PenAction.isDrawn_of_resolve {a : PenAction} {m : Affine} {mark : PenMark}
    (ha : a.frame? = none) (h : a.resolve m = .ok mark) : mark.IsDrawn := by
  obtain ⟨-, rfl⟩ := resolve_eq_ok_iff.mp h
  cases a with
  | setTransform m => cases ha
  | _ => trivial

namespace Pen

/-- The pen with another transform. -/
def inFrame (pen : Pen) (m : Affine) : Pen := { pen with transform := m }

theorem inFrame_transform (pen : Pen) : pen.inFrame pen.transform = pen := rfl

theorem transform_inFrame (pen : Pen) (m : Affine) : (pen.inFrame m).transform = m := rfl

theorem inFrame_inFrame (pen : Pen) (m n : Affine) : (pen.inFrame m).inFrame n = pen.inFrame n := rfl

theorem extended_inFrame (pen : Pen) (m : Affine) (segments : List Segment) :
    (pen.inFrame m).extended segments = (pen.extended segments).inFrame m := by
  obtain ⟨figures, current, cursor, transform⟩ := pen
  cases current <;> rfl

theorem joined_inFrame (pen : Pen) (m : Affine) (first : Point) :
    (pen.inFrame m).joined first = (pen.joined first).inFrame m := by
  obtain ⟨figures, current, cursor, transform⟩ := pen
  cases current <;> rfl

/-- A mark that draws or ends figures neither reads nor changes the transform. -/
theorem marked_inFrame {mark : PenMark} (h : mark.IsDrawn) (pen : Pen) (m : Affine) :
    (pen.inFrame m).marked mark = (pen.marked mark).inFrame m := by
  cases mark with
  | moveTo p => rfl
  | draw s => rw [marked, marked, drawn, drawn, extended_inFrame]; rfl
  | arc first curves last => rw [marked, marked, joined_inFrame, extended_inFrame]; rfl
  | startFigure => rfl
  | closeFigure =>
    obtain ⟨figures, current, cursor, transform⟩ := pen
    cases current <;> rfl
  | closeAllFigures =>
    obtain ⟨figures, current, cursor, transform⟩ := pen
    cases current <;> rfl
  | setTransform n => exact h.elim

end Pen

end VectorScene
