import VectorScene.Proofs.Instruction.Marks
import VectorScene.Proofs.Instruction.Rewriting
import VectorScene.Proofs.Path.Closing

/-!
# Programs one after the other

A pen that carries figures below its own makes the same marks on its own figures, whatever those
below are (`Pen.markedAll_atop`); only closing all figures reaches down to them. A program that starts
by moving the cursor takes up none of the figures that are there before it, so what it draws is put
after them, and of the program before it only the transform that it leaves counts
(`Instruction.construct_seq_of_moveTo`).
-/

namespace VectorScene

namespace Pen

/-! ## Figures below -/

/-- The pen with other figures below its own. -/
def atop (pen : Pen) (below : Array Figure) : Pen :=
  { pen with
    figures := below ++ pen.figures
    current := pen.current.map (below.size + ·) }

theorem build_atop (pen : Pen) (below : Array Figure) :
    (pen.atop below).build = ⟨below.toList.flatMap Figure.commands ++ pen.build.commands⟩ := by
  simp [build, atop]

theorem modify_append_right {α : Type} (xs ys : Array α) (i : Nat) (f : α → α) :
    (xs ++ ys).modify (xs.size + i) f = xs ++ ys.modify i f := by
  apply Array.ext
  · simp
  · intro j h₁ h₂
    simp only [Array.getElem_modify, Array.getElem_append]
    grind

theorem startOf_atop (pen : Pen) (below : Array Figure) (i : Nat) :
    (pen.atop below).startOf (below.size + i) = pen.startOf i := by
  rw [startOf, startOf, atop, Array.getElem?_append_right (Nat.le_add_right _ _),
    Nat.add_sub_cancel_left]

theorem extended_atop (pen : Pen) (below : Array Figure) (segments : List Segment) :
    (pen.atop below).extended segments = (pen.extended segments).atop below := by
  obtain ⟨figures, current, cursor, transform⟩ := pen
  cases current with
  | none => simp [extended, atop]
  | some i => simp [extended, atop, modify_append_right]

theorem drawn_atop (pen : Pen) (below : Array Figure) (segment : Segment) :
    (pen.atop below).drawn segment = (pen.drawn segment).atop below := by
  rw [drawn, extended_atop]
  rfl

theorem joined_atop (pen : Pen) (below : Array Figure) (first : Point) :
    (pen.atop below).joined first = (pen.joined first).atop below := by
  have hopen : (pen.atop below).current.isSome = pen.current.isSome := Option.isSome_map
  rw [joined, joined, hopen]
  split
  · exact drawn_atop pen below (.line first)
  · rfl

end Pen

/-- What a mark makes of figures below those of the pen. -/
def PenMark.onBelow (below : Array Figure) : PenMark → Array Figure
  | closeAllFigures => below.map Figure.close
  | _ => below

namespace Pen

/-- A mark is made on top of other figures as it is made without them. -/
theorem marked_atop (pen : Pen) (below : Array Figure) (mark : PenMark) :
    (pen.atop below).marked mark = (pen.marked mark).atop (mark.onBelow below) := by
  cases mark with
  | moveTo p => rfl
  | draw s => exact drawn_atop pen below s
  | arc first curves last =>
    rw [marked, joined_atop, extended_atop]
    rfl
  | startFigure => rfl
  | closeFigure =>
    have hstart := pen.startOf_atop below
    obtain ⟨figures, current, cursor, transform⟩ := pen
    cases current with
    | none => rfl
    | some i =>
      simp only [marked, atop, Option.map_some] at hstart ⊢
      rw [hstart, modify_append_right]
      rfl
  | closeAllFigures =>
    have hstart := pen.startOf_atop below
    obtain ⟨figures, current, cursor, transform⟩ := pen
    cases current with
    | none => simp only [marked, atop, PenMark.onBelow, Array.map_append, Option.map_none]; rfl
    | some i =>
      simp only [marked, atop, PenMark.onBelow, Array.map_append, Option.map_some] at hstart ⊢
      rw [hstart]
      rfl
  | setTransform m => rfl

theorem markedAll_atop (pen : Pen) (below : Array Figure) (marks : List PenMark) :
    (pen.atop below).markedAll marks =
      (pen.markedAll marks).atop (marks.foldl PenMark.onBelow below) := by
  induction marks generalizing pen below with
  | nil => rfl
  | cons mark marks ih => rw [markedAll_cons, marked_atop, ih, markedAll_cons, List.foldl_cons]

/-- If all figures are closed at some time, those below are, and else they stay as they are. -/
theorem foldl_onBelow (marks : List PenMark) (below : Array Figure) :
    (.closeAllFigures ∈ marks → marks.foldl PenMark.onBelow below = below.map Figure.close) ∧
      (.closeAllFigures ∉ marks → marks.foldl PenMark.onBelow below = below) := by
  induction marks generalizing below with
  | nil => exact ⟨nofun, fun _ => rfl⟩
  | cons mark marks ih =>
    have hclosed : (below.map Figure.close).map Figure.close = below.map Figure.close := by
      rw [Array.map_map]
      rfl
    by_cases hmarks : .closeAllFigures ∈ marks
    · refine ⟨fun _ => ?_, fun h => absurd (List.mem_cons_of_mem mark hmarks) h⟩
      rw [List.foldl_cons, (ih _).1 hmarks]
      cases mark with
      | closeAllFigures => exact hclosed
      | _ => rfl
    · rw [List.foldl_cons, (ih _).2 hmarks]
      refine ⟨fun h => ?_, fun h => ?_⟩
      · rcases List.mem_cons.mp h with rfl | h
        · rfl
        · exact absurd h hmarks
      · cases mark with
        | closeAllFigures => exact absurd List.mem_cons_self h
        | _ => rfl

end Pen

namespace Instruction

/-- A program that moves the cursor first leaves a mark of this first. -/
theorem exists_of_marks_moveTo {j : Instruction} {m : Affine} {p : Point} {marks : List PenMark}
    (hj : j.drawnActions.head? = some (.moveTo p)) (h : j.marks m = .ok marks) :
    ∃ q rest, marks = .moveTo q :: rest := by
  rw [drawnActions, ← map_snd_occurrences j (.inside .top m), List.head?_map] at hj
  rw [Instruction.marks] at h
  cases hos : j.occurrences (.inside .top m) with
  | nil => rw [hos] at hj; cases hj
  | cons o os =>
    rw [hos, List.mapM_cons] at h
    rw [hos] at hj
    obtain ⟨mark, hmark, h⟩ := bind_eq_ok_iff.mp h
    obtain ⟨rest, -, h⟩ := bind_eq_ok_iff.mp h
    cases h
    have ho : o.2 = .moveTo p := Option.some.inj hj
    rw [Occurrence.mark, ho] at hmark
    obtain ⟨q, -, hmark⟩ := bind_eq_ok_iff.mp hmark
    cases hmark
    exact ⟨q, rest, rfl⟩

/-- The figures below those of a pen are closed by an instruction that closes all figures, and else
they stay as they are. -/
theorem flatMap_commands_onBelow {j : Instruction} {m : Affine} {marks : List PenMark}
    (h : j.marks m = .ok marks) (pen : Pen) :
    (marks.foldl PenMark.onBelow pen.figures).toList.flatMap Figure.commands =
      (if j.closesAll then pen.build.closed else pen.build).commands := by
  obtain ⟨hclosed, hkept⟩ := Pen.foldl_onBelow marks pen.figures
  rw [closeAllFigures_mem_marks_iff h] at hclosed hkept
  split
  · rename_i hall
    rw [hclosed hall, Array.toList_map, Figure.flatMap_commands_close]
    rfl
  · rename_i hall
    rw [hkept hall]
    rfl

/-- An instruction that moves the cursor first draws after the figures that are there what it draws
with a new pen. -/
theorem build_markedAll_of_moveTo {j : Instruction} {pen : Pen} {m : Affine} {p : Point}
    {marks : List PenMark} (hj : j.drawnActions.head? = some (.moveTo p)) (h : j.marks m = .ok marks) :
    (pen.markedAll marks).build =
      (if j.closesAll then pen.build.closed else pen.build).extend
        (Pen.markedAll {} marks).build := by
  have hbelow := flatMap_commands_onBelow h pen
  have hdrawn := isDrawn_of_marks h
  obtain ⟨q, rest, rfl⟩ := exists_of_marks_moveTo hj h
  -- When the cursor has been moved, the pen is a new one but for the figures below and the transform.
  have hmoved : pen.marked (.moveTo q) =
      ((Pen.marked {} (.moveTo q)).inFrame pen.transform).atop pen.figures := by
    simp [Pen.marked, Pen.atop, Pen.inFrame]
  rw [Pen.markedAll_cons, hmoved, Pen.markedAll_atop, Pen.build_atop,
    Pen.markedAll_inFrame (List.forall_mem_cons.mp hdrawn).2, Pen.build_inFrame, Path.extend, ← hbelow]
  rfl

/-- Figures compose by concatenation. An instruction that moves the cursor before it draws or ends
anything draws the same after another one as it draws alone, under the transform that it finds, or it
fails with the same error. The figures before it stay as they are, unless it closes all figures. -/
theorem construct_seq_of_moveTo {i j : Instruction} {c : Compilation} {p : Point}
    (hi : i.compile = .ok c) (hj : j.drawnActions.head? = some (.moveTo p)) :
    i.construct = .ok c.path ∧
    (seq i j).construct =
      (seq (act (.setTransform c.pen.transform)) j).construct.map fun q =>
        (if j.closesAll then c.path.closed else c.path).extend q := by
  refine ⟨by rw [construct, hi]; rfl, ?_⟩
  have hpen : (seq i j).construct = (j.advance c.pen).map Pen.build := by
    rw [construct_eq_advance, advance_seq, advance_of_compile hi]
    rfl
  rw [hpen, advance_eq_marks, construct_setTransform_seq_eq_marks]
  cases h : j.marks c.pen.transform with
  | error e => rfl
  | ok marks => exact congrArg Except.ok (build_markedAll_of_moveTo hj h)

/-- A line that is left open. -/
def openLine : Instruction :=
  .sequence [moveTo ⟨0, 0⟩, lineTo ⟨1, 0⟩, .act (.setTransform (.translation 5 0))]

/-- A corner, which starts in a frame of its own; then all figures are closed. -/
def closingCorner : Instruction :=
  .sequence [within (.scale 2 2) (moveTo ⟨1, 1⟩), lineTo ⟨3, 3⟩, lineTo ⟨3, 1⟩, act .closeAllFigures]

theorem construct_openLine_closingCorner :
    closingCorner.drawnActions.head? = some (.moveTo ⟨1, 1⟩) ∧
      ∃ c q, openLine.compile = .ok c ∧
        (seq (act (.setTransform c.pen.transform)) closingCorner).construct = .ok q ∧
        (seq openLine closingCorner).construct = .ok (c.path.closed.extend q) := by
  obtain ⟨c, hc⟩ : ∃ c, openLine.compile = .ok c := exists_of_isOk (by decide +kernel)
  have hmove : closingCorner.drawnActions.head? = some (.moveTo ⟨1, 1⟩) := rfl
  obtain ⟨-, hseq⟩ := construct_seq_of_moveTo hc hmove
  obtain ⟨p, hp⟩ : ∃ p, (seq openLine closingCorner).construct = .ok p :=
    exists_of_isOk (by decide +kernel)
  cases hq : (seq (act (.setTransform c.pen.transform)) closingCorner).construct with
  | error e => rw [hq, hp] at hseq; cases hseq
  | ok q => exact ⟨hmove, c, q, hc, hq, by rw [hseq, hq]; rfl⟩

end Instruction

end VectorScene
