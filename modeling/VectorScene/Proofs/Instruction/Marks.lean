import VectorScene.Proofs.Instruction.Frame
import VectorScene.Proofs.Pen.Tidy

/-!
# The marks of an instruction

The marks that an instruction leaves follow from the transform that it finds. Nothing else of the pen
takes part: no figure and no cursor decides whether a point is finite or where it is placed. So an
instruction runs in two stages. `Instruction.marks` places all its points and may fail, and
`Pen.markedAll` makes the marks on a pen and cannot fail (`advance_eq_marks`).

What is said of all programs can so be said of all lists of marks, where each step is one mark.
-/

namespace VectorScene

namespace Pen

/-- The pen after some marks. -/
def markedAll (pen : Pen) (marks : List PenMark) : Pen := marks.foldl marked pen

theorem markedAll_cons (pen : Pen) (mark : PenMark) (marks : List PenMark) :
    pen.markedAll (mark :: marks) = (pen.marked mark).markedAll marks := rfl

theorem markedAll_append (pen : Pen) (before after : List PenMark) :
    pen.markedAll (before ++ after) = (pen.markedAll before).markedAll after := List.foldl_append

/-- Marks that draw or end figures neither read nor change the transform. -/
theorem markedAll_inFrame {marks : List PenMark} (h : ∀ mark ∈ marks, mark.IsDrawn) (pen : Pen)
    (m : Affine) : (pen.inFrame m).markedAll marks = (pen.markedAll marks).inFrame m := by
  induction marks generalizing pen with
  | nil => rfl
  | cons mark marks ih =>
    obtain ⟨hmark, h⟩ := List.forall_mem_cons.mp h
    rw [markedAll_cons, marked_inFrame hmark, ih h, markedAll_cons]

/-- Marks with finite points keep a pen tidy. -/
theorem Tidy.markedAll {pen : Pen} (h : pen.Tidy) {marks : List PenMark}
    (hfinite : ∀ mark ∈ marks, mark.Finite) : (pen.markedAll marks).Tidy := by
  induction marks generalizing pen with
  | nil => exact h
  | cons mark marks ih =>
    obtain ⟨hmark, hfinite⟩ := List.forall_mem_cons.mp hfinite
    exact ih (h.marked hmark) hfinite

theorem build_inFrame (pen : Pen) (m : Affine) : (pen.inFrame m).build = pen.build := rfl

end Pen

def PenAction.isCloseAll : PenAction → Bool
  | closeAllFigures => true
  | _ => false

/-- Only closing all figures leaves a mark of this. -/
theorem PenAction.eq_closeAllFigures_iff {a : PenAction} {m : Affine} {mark : PenMark}
    (h : a.resolve m = .ok mark) : mark = .closeAllFigures ↔ a.isCloseAll := by
  obtain ⟨-, rfl⟩ := resolve_eq_ok_iff.mp h
  cases a <;> simp [PenAction.mark, PenMark.map, isCloseAll]

namespace Instruction

/-- The mark of an occurrence under the frame of its place. -/
def Occurrence.mark (o : Occurrence) : Except GeometryError PenMark := o.2.resolve o.1.frame

/-- The marks of an instruction that finds the transform `m`. -/
def marks (i : Instruction) (m : Affine) : Except GeometryError (List PenMark) :=
  (i.occurrences (.inside .top m)).mapM Occurrence.mark

/-- The actions of an instruction that draw or end figures, in the order in which they run. -/
def drawnActions (i : Instruction) : List PenAction := i.actions.filter fun a => a.frame?.isNone

/-- Whether an instruction closes all figures at some time. -/
def closesAll (i : Instruction) : Bool := i.actions.any PenAction.isCloseAll

/-- Occurrences are drawn by placing all of them first. -/
theorem drawAll_eq_marks (os : List Occurrence) (pen : Pen) :
    drawAll os pen = (os.mapM Occurrence.mark).map pen.markedAll := by
  induction os generalizing pen with
  | nil => rfl
  | cons o os ih =>
    rw [drawAll, List.foldlM_cons, Occurrence.drawBy]
    cases ho : o.2.resolve o.1.frame with
    | error e => rw [mapM_cons_error os ho]; rfl
    | ok mark =>
      rw [mapM_cons_ok os ho]
      refine (ih (pen.marked mark)).trans ?_
      cases os.mapM Occurrence.mark <;> rfl

/-- An instruction places all its points first, and then makes its marks. -/
theorem advance_eq_marks (i : Instruction) (pen : Pen) :
    i.advance pen = (i.marks pen.transform).map fun marks =>
      (pen.markedAll marks).inFrame (Context.after (.inside .top pen.transform) i).frame := by
  have hrun : i.advance pen = _ := advance_eq_drawAll i (.inside .top pen.transform) pen
  rw [hrun, drawAll_eq_marks, marks]
  cases (i.occurrences (.inside .top pen.transform)).mapM Occurrence.mark <;> rfl

theorem isDrawn_of_marks {i : Instruction} {m : Affine} {marks : List PenMark}
    (h : i.marks m = .ok marks) : ∀ mark ∈ marks, mark.IsDrawn := by
  intro mark hmark
  obtain ⟨o, ho, hm⟩ := exists_of_mem_mapM h mark hmark
  exact o.2.isDrawn_of_resolve (frame?_of_mem_occurrences o ho) hm

theorem closesAll_eq_any_occurrences (i : Instruction) (c : Context) :
    i.closesAll = (i.occurrences c).any fun o => o.2.isCloseAll := by
  have hdrawn : ∀ a : PenAction, (a.frame?.isNone && a.isCloseAll) = a.isCloseAll := by
    intro a
    cases a <;> rfl
  calc i.closesAll = (i.actions.filter fun a => a.frame?.isNone).any PenAction.isCloseAll := by
        rw [List.any_filter, closesAll]
        simp only [hdrawn]
    _ = ((i.occurrences c).map Prod.snd).any PenAction.isCloseAll := by rw [map_snd_occurrences]
    _ = (i.occurrences c).any fun o => o.2.isCloseAll := List.any_map

/-- An instruction makes a mark that closes all figures if it has an action that does. -/
theorem closeAllFigures_mem_marks_iff {i : Instruction} {m : Affine} {marks : List PenMark}
    (h : i.marks m = .ok marks) : .closeAllFigures ∈ marks ↔ i.closesAll := by
  rw [i.closesAll_eq_any_occurrences (.inside .top m), List.any_eq_true]
  constructor
  · intro hmark
    obtain ⟨o, ho, hm⟩ := exists_of_mem_mapM h _ hmark
    exact ⟨o, ho, (PenAction.eq_closeAllFigures_iff hm).mp rfl⟩
  · rintro ⟨o, ho, haction⟩
    obtain ⟨mark, hmark, hm⟩ := exists_of_mapM_ok h o ho
    exact (PenAction.eq_closeAllFigures_iff hm).mpr haction ▸ hmark

theorem finite_of_marks {i : Instruction} {m : Affine} {marks : List PenMark}
    (h : i.marks m = .ok marks) : ∀ mark ∈ marks, mark.Finite := by
  intro mark hmark
  obtain ⟨o, -, hm⟩ := exists_of_mem_mapM h mark hmark
  exact o.2.finite_of_resolve hm

/-- What is constructed with a new pen. -/
theorem construct_eq_marks (i : Instruction) :
    i.construct = (i.marks Affine.identity).map fun marks => (Pen.markedAll {} marks).build := by
  rw [construct_eq_advance, advance_eq_marks]
  show (((i.marks Affine.identity).map _).map Pen.build) = _
  cases i.marks Affine.identity <;> rfl

/-- What is constructed under a transform that is set first. -/
theorem construct_setTransform_seq_eq_marks (i : Instruction) (m : Affine) :
    (seq (act (.setTransform m)) i).construct =
      (i.marks m).map fun marks => (Pen.markedAll {} marks).build := by
  rw [construct_eq_advance, advance_seq, advance_act]
  show (i.advance (Pen.inFrame {} m)).map Pen.build = _
  rw [advance_eq_marks, Pen.transform_inFrame]
  cases h : i.marks m with
  | error e => rfl
  | ok marks =>
    show Except.ok (((Pen.inFrame {} m).markedAll marks).inFrame _).build = _
    rw [Pen.build_inFrame, Pen.markedAll_inFrame (isDrawn_of_marks h), Pen.build_inFrame]
    rfl

end Instruction

end VectorScene
