import Mathlib.Data.List.Infix
import VectorScene.Proofs.Instruction.Marks
import VectorScene.Proofs.Path.Closing

/-!
# Drawing only adds

A pen changes no figure but the open one, which is the last, and it changes this one by adding
segments at its end and a `close` after them. So each mark puts commands after those of the path that
the pen has built before (`Pen.prefix_marked`). The one exception is closing all figures: it may put a
`close` at the end of any figure, and leaves all other commands as they are
(`Pen.withoutCloses_closeAllFigures`).
-/

namespace VectorScene

namespace Path

/-- The commands of a path but for each `close`. -/
def withoutCloses (p : Path) : List Command := p.commands.filter fun c => c ≠ .close

theorem points_eq_withoutCloses (p : Path) : p.points = p.withoutCloses.flatMap Command.points := by
  obtain ⟨cs⟩ := p
  induction cs with
  | nil => rfl
  | cons c cs ih =>
    simp only [points, withoutCloses] at ih ⊢
    cases c <;> simp [Command.points, ih]

end Path

namespace Figure

variable {f : Figure}

/-- An open figure with more segments starts as it did. -/
theorem prefix_append_segments (h : f.closed = false) (segments : List Segment) :
    f.commands <+: Figure.commands { f with segments := f.segments ++ segments } := by
  cases hd : f.isDrawn with
  | false =>
    rw [commands_of_not_isDrawn hd]
    exact List.nil_prefix
  | true =>
    have hmore : Figure.isDrawn { f with segments := f.segments ++ segments } :=
      isDrawn_of_append_segments hd segments
    rw [commands_of_isDrawn hd, commands_of_isDrawn hmore, h]
    refine ⟨segments.map .draw, ?_⟩
    simp

/-- An open figure that is closed starts as it did. -/
theorem prefix_close (h : f.closed = false) : f.commands <+: f.close.commands := by
  cases hd : f.isDrawn with
  | false =>
    rw [commands_of_not_isDrawn hd]
    exact List.nil_prefix
  | true =>
    have hclose : f.close.isDrawn := hd
    rw [commands_of_isDrawn hd, commands_of_isDrawn hclose, h]
    exact ⟨[.close], List.append_assoc _ _ _⟩

theorem filter_commands_close (f : Figure) :
    (f.close.commands.filter fun c => c ≠ .close) = f.commands.filter fun c => c ≠ .close := by
  cases hd : f.isDrawn with
  | false =>
    have hclose : f.close.isDrawn = false := hd
    rw [commands_of_not_isDrawn hd, commands_of_not_isDrawn hclose]
  | true =>
    have hclose : f.close.isDrawn := hd
    rw [commands_of_isDrawn hd, commands_of_isDrawn hclose, List.filter_append, List.filter_append]
    cases h : f.closed <;> simp [close]

end Figure

namespace Pen

variable {pen pen' : Pen} {earlier : Array Figure} {f g : Figure}

/-! ## One mark -/

/-- What has been built starts what is built when the last figure starts as it did. -/
theorem prefix_of_push (h : pen.figures = earlier.push f) (h' : pen'.figures = earlier.push g)
    (hfg : f.commands <+: g.commands) : pen.build.commands <+: pen'.build.commands := by
  rw [commands_build_of_push h, commands_build_of_push h']
  exact (List.prefix_append_right_inj _).mpr hfg

theorem prefix_extended (h : pen.Tidy) (segments : List Segment) :
    pen.build.commands <+: (pen.extended segments).build.commands := by
  unfold extended
  cases hcurrent : pen.current with
  | none =>
    exact ⟨_, (commands_build_of_push rfl).symm⟩
  | some i =>
    obtain ⟨earlier, f, rfl, hpush, hopen⟩ := h.exists_push hcurrent
    simp only [hpush, modify_push_size]
    exact prefix_of_push hpush rfl (Figure.prefix_append_segments hopen segments)

theorem prefix_drawn (h : pen.Tidy) (s : Segment) :
    pen.build.commands <+: (pen.drawn s).build.commands := prefix_extended h [s]

theorem prefix_joined (h : pen.Tidy) (first : Point) :
    pen.build.commands <+: (pen.joined first).build.commands := by
  unfold joined
  split
  · exact prefix_drawn h (.line first)
  · exact List.prefix_refl _

/-- A mark puts commands after those that have been built, unless it closes all figures. -/
theorem prefix_marked (h : pen.Tidy) {mark : PenMark} (hfinite : mark.Finite)
    (hmark : mark ≠ .closeAllFigures) : pen.build.commands <+: (pen.marked mark).build.commands := by
  cases mark with
  | draw s => exact prefix_drawn h s
  | arc first curves last =>
    exact (prefix_joined h first).trans (prefix_extended (h.joined hfinite.1) curves)
  | closeFigure =>
    simp only [marked]
    cases hcurrent : pen.current with
    | none => exact List.prefix_refl _
    | some i =>
      obtain ⟨earlier, f, rfl, hpush, hopen⟩ := h.exists_push hcurrent
      simp only [hpush, modify_push_size]
      exact prefix_of_push hpush rfl (Figure.prefix_close hopen)
  | closeAllFigures => exact absurd rfl hmark
  | moveTo p => exact List.prefix_refl _
  | startFigure => exact List.prefix_refl _
  | setTransform m => exact List.prefix_refl _

/-- Closing all figures leaves all commands that are no `close` as they are. -/
theorem withoutCloses_closeAllFigures (pen : Pen) :
    (pen.marked .closeAllFigures).build.withoutCloses = pen.build.withoutCloses := by
  have hfigures : (pen.marked .closeAllFigures).figures = pen.figures.map Figure.close := rfl
  rw [Path.withoutCloses, Path.withoutCloses, build, build, hfigures, Array.toList_map,
    List.flatMap_map, List.filter_flatMap, List.filter_flatMap]
  simp only [Figure.filter_commands_close]

theorem prefix_withoutCloses_marked (h : pen.Tidy) {mark : PenMark} (hfinite : mark.Finite) :
    pen.build.withoutCloses <+: (pen.marked mark).build.withoutCloses := by
  by_cases hmark : mark = .closeAllFigures
  · rw [hmark, withoutCloses_closeAllFigures]
  · exact (prefix_marked h hfinite hmark).filter _

/-! ## All marks -/

/-- What each mark only adds to, all marks only add to. -/
theorem prefix_markedAll (read : Pen → List Command) {marks : List PenMark} (h : pen.Tidy)
    (hfinite : ∀ mark ∈ marks, mark.Finite)
    (hstep : ∀ pen, pen.Tidy → ∀ mark ∈ marks, read pen <+: read (pen.marked mark)) :
    read pen <+: read (pen.markedAll marks) := by
  induction marks generalizing pen with
  | nil => exact List.prefix_refl _
  | cons mark marks ih =>
    obtain ⟨hmark, hfinite⟩ := List.forall_mem_cons.mp hfinite
    refine (hstep pen h mark List.mem_cons_self).trans (ih (h.marked hmark) hfinite ?_)
    exact fun pen h mark hmem => hstep pen h mark (List.mem_cons_of_mem _ hmem)

end Pen

namespace Instruction

theorem tidy_of_advance {i : Instruction} {pen pen' : Pen} (hpen : pen.Tidy)
    (h : i.advance pen = .ok pen') : pen'.Tidy := by
  rw [advance_eq_marks] at h
  obtain ⟨marks, hmarks, rfl⟩ := map_eq_ok_iff.mp h
  exact (hpen.markedAll (finite_of_marks hmarks)).setTransform _

/-- An instruction puts commands after those that have been built. Only where it closes all figures may
it put a `close` before some of them. -/
theorem prefix_of_advance {j : Instruction} {pen pen' : Pen} (hpen : pen.Tidy)
    (h : j.advance pen = .ok pen') :
    (j.closesAll = false → pen.build.commands <+: pen'.build.commands) ∧
      pen.build.withoutCloses <+: pen'.build.withoutCloses := by
  rw [advance_eq_marks] at h
  obtain ⟨marks, hmarks, rfl⟩ := map_eq_ok_iff.mp h
  have hfinite := finite_of_marks hmarks
  rw [Pen.build_inFrame]
  refine ⟨fun hclose => ?_, ?_⟩
  · refine Pen.prefix_markedAll (fun pen => pen.build.commands) hpen hfinite
      fun pen h mark hmark => Pen.prefix_marked h (hfinite mark hmark) ?_
    rintro rfl
    rw [(closeAllFigures_mem_marks_iff hmarks).mp hmark] at hclose
    cases hclose
  · exact Pen.prefix_markedAll (fun pen => pen.build.withoutCloses) hpen hfinite
      fun pen h mark hmark => Pen.prefix_withoutCloses_marked h (hfinite mark hmark)

/-- Drawing only adds. An instruction that fails fails also before another one. If it does not, and the
two succeed together, then what it has drawn starts what they draw, up to the `close` that may be put
at the end of a figure by closing all of them; and no point that was drawn is changed, moved to another
place or removed. -/
theorem construct_seq_grows (i j : Instruction) :
    (∀ e, i.construct = .error e → (seq i j).construct = .error e) ∧
    ∀ q, (seq i j).construct = .ok q → ∃ p, i.construct = .ok p ∧
      (j.closesAll = false → p.commands <+: q.commands) ∧
      p.withoutCloses <+: q.withoutCloses ∧
      p.points <+: q.points := by
  rw [construct_eq_advance, construct_eq_advance, advance_seq]
  cases hi : i.advance {} with
  | error e => exact ⟨fun e' h => h, nofun⟩
  | ok pen =>
    refine ⟨nofun, fun q hq => ⟨pen.build, rfl, ?_⟩⟩
    obtain ⟨pen', hj, rfl⟩ := map_eq_ok_iff.mp hq
    obtain ⟨hcommands, hdrawn⟩ := prefix_of_advance (tidy_of_advance Pen.Tidy.new hi) hj
    refine ⟨hcommands, hdrawn, ?_⟩
    rw [Path.points_eq_withoutCloses, Path.points_eq_withoutCloses]
    exact hdrawn.flatMap _

/-- Two sides of a triangle, and a figure that has only a start: the arc sweeps nothing. -/
def unfinished : Instruction :=
  .sequence
    [moveTo ⟨0, 0⟩, lineTo ⟨1, 0⟩, lineTo ⟨0, 1⟩, act .startFigure,
      act (.arcTo ⟨⟨2, 2⟩, ⟨1, 1⟩, 0, 0, 0⟩)]

/-- A line from where the pen stands, and back. -/
def thereAndBack : Instruction := .sequence [lineTo ⟨5, 2⟩, act .closeFigure]

theorem construct_unfinished_thereAndBack :
    (lineTo ⟨1 / 0, 0⟩).construct = .error (.nonFinite .lineTo) ∧
    (seq (lineTo ⟨1 / 0, 0⟩) thereAndBack).construct = .error (.nonFinite .lineTo) ∧
    thereAndBack.closesAll = false ∧
    ∃ p q, unfinished.construct = .ok p ∧ (seq unfinished thereAndBack).construct = .ok q ∧
      p.figureCount = 1 ∧ q.figureCount = 2 ∧ p.commands <+: q.commands := by
  have herror : (lineTo ⟨1 / 0, 0⟩).construct = .error (.nonFinite .lineTo) := by decide +kernel
  have hopen : thereAndBack.closesAll = false := rfl
  refine ⟨herror, (construct_seq_grows _ thereAndBack).1 _ herror, hopen, ?_⟩
  obtain ⟨q, hq⟩ : ∃ q, (seq unfinished thereAndBack).construct = .ok q :=
    exists_of_isOk (by decide +kernel)
  obtain ⟨p, hp, hprefix, -⟩ := (construct_seq_grows unfinished thereAndBack).2 q hq
  have hbefore : unfinished.construct.map Path.figureCount = .ok 1 := by decide +kernel
  have hafter : (seq unfinished thereAndBack).construct.map Path.figureCount = .ok 2 := by
    decide +kernel
  rw [hp] at hbefore
  rw [hq] at hafter
  exact ⟨p, q, hp, hq, Except.ok.inj hbefore, Except.ok.inj hafter, hprefix hopen⟩

end Instruction

end VectorScene
