import VectorScene.Proofs.Pen.Run

/-!
# Tidy pens

A pen is tidy if the open figure, when there is one, is the last figure and is not closed, and if the
cursor and all points of its figures are finite. A mark with finite points keeps a pen tidy
(`Tidy.marked`), so a run of actions does (`Tidy.attemptAll`), whether or not some of them fail.

A tidy pen either has no open figure, or its figures are some array with the open figure pushed to
it (`Tidy.exists_push`); all proofs here look at the pen in this form.
-/

namespace VectorScene

def Figure.Finite (f : Figure) : Prop := f.start.isFinite ∧ ∀ s ∈ f.segments, s.Finite

namespace Pen

structure Tidy (pen : Pen) : Prop where
  /-- The open figure is the last one and is not closed. -/
  current : ∀ i, pen.current = some i →
    i + 1 = pen.figures.size ∧ ∃ f, pen.figures[i]? = some f ∧ f.closed = false
  cursor : pen.cursor.isFinite
  figures : ∀ f ∈ pen.figures, f.Finite

namespace Tidy

variable {pen : Pen}

theorem new : Tidy {} := ⟨nofun, by decide +kernel, nofun⟩

/-- The figures of a tidy pen are those before the open one, and the open one. -/
theorem exists_push (h : pen.Tidy) {i : Nat} (hi : pen.current = some i) :
    ∃ (earlier : Array Figure) (f : Figure),
      i = earlier.size ∧ pen.figures = earlier.push f ∧ f.closed = false := by
  obtain ⟨hsize, f, hf, hopen⟩ := h.current i hi
  obtain ⟨earlier, g, hpush⟩ := Array.exists_push_of_size_eq_add_one hsize.symm
  rw [hpush, Array.size_push] at hsize
  have hlast : i = earlier.size := Nat.succ.inj hsize
  rw [hpush, hlast, Array.getElem?_push_size] at hf
  exact ⟨earlier, g, hlast, hpush, Option.some.inj hf ▸ hopen⟩

/-- A pen without an open figure is tidy if its points are finite. -/
theorem of_none (hcurrent : pen.current = none) (hcursor : pen.cursor.isFinite)
    (hfigures : ∀ f ∈ pen.figures, f.Finite) : pen.Tidy := by
  refine ⟨fun i hi => ?_, hcursor, hfigures⟩
  rw [hcurrent] at hi
  cases hi

/-- A pen whose open figure was pushed last is tidy if its points are finite. -/
theorem of_push {earlier : Array Figure} {f : Figure} (hcurrent : pen.current = some earlier.size)
    (hpush : pen.figures = earlier.push f) (hopen : f.closed = false) (hcursor : pen.cursor.isFinite)
    (hearlier : ∀ g ∈ earlier, g.Finite) (hf : f.Finite) : pen.Tidy := by
  refine ⟨fun i hi => ?_, hcursor, ?_⟩
  · rw [hcurrent] at hi
    cases hi
    rw [hpush, Array.size_push, Array.getElem?_push_size]
    exact ⟨rfl, f, rfl, hopen⟩
  · rw [hpush]
    exact Array.forall_mem_push.mpr ⟨hf, hearlier⟩

/-! ## Marks -/

theorem moveCursor (h : pen.Tidy) {p : Point} (hp : p.isFinite) : Tidy { pen with cursor := p } :=
  ⟨h.current, hp, h.figures⟩

theorem setTransform (h : pen.Tidy) (m : Affine) : Tidy { pen with transform := m } :=
  ⟨h.current, h.cursor, h.figures⟩

theorem extended (h : pen.Tidy) {segments : List Segment} (hs : ∀ s ∈ segments, s.Finite) :
    (pen.extended segments).Tidy := by
  unfold Pen.extended
  cases hcurrent : pen.current with
  | none => exact of_push rfl rfl rfl h.cursor h.figures ⟨h.cursor, by simpa using hs⟩
  | some i =>
    obtain ⟨earlier, f, rfl, hpush, hopen⟩ := h.exists_push hcurrent
    obtain ⟨hf, hearlier⟩ := Array.forall_mem_push.mp (hpush ▸ h.figures)
    simp only [hpush, modify_push_size]
    refine of_push rfl rfl hopen h.cursor hearlier ⟨hf.1, fun s hmem => ?_⟩
    have hmem : s ∈ f.segments.toList ++ segments := by
      rwa [← Array.toList_appendList, Array.mem_toList_iff]
    rcases List.mem_append.mp hmem with hmem | hmem
    · exact hf.2 s (Array.mem_toList_iff.mp hmem)
    · exact hs s hmem

theorem drawn (h : pen.Tidy) {s : Segment} (hs : s.Finite) : (pen.drawn s).Tidy :=
  (h.extended (List.forall_mem_singleton.mpr hs)).moveCursor hs.target

theorem joined (h : pen.Tidy) {first : Point} (hfirst : first.isFinite) : (pen.joined first).Tidy := by
  unfold Pen.joined
  split
  · exact h.drawn (List.forall_mem_singleton.mpr hfirst)
  · exact h.moveCursor hfirst

theorem finite_startOf (h : pen.Tidy) (i : Nat) : (pen.startOf i).isFinite := by
  unfold startOf
  cases hi : pen.figures[i]? with
  | none => exact h.cursor
  | some f => exact (h.figures f (Array.mem_of_getElem? hi)).1

/-- A mark with finite points keeps a pen tidy. -/
theorem marked (h : pen.Tidy) {mark : PenMark} (hmark : mark.Finite) : (pen.marked mark).Tidy := by
  cases mark with
  | moveTo p => exact of_none rfl hmark h.figures
  | draw s => exact h.drawn hmark
  | arc first curves last =>
    obtain ⟨hfirst, hcurves, hlast⟩ := hmark
    exact ((h.joined hfirst).extended hcurves).moveCursor hlast
  | startFigure => exact of_none rfl h.cursor h.figures
  | closeFigure =>
    simp only [Pen.marked]
    cases hcurrent : pen.current with
    | none => exact h
    | some i =>
      obtain ⟨earlier, f, rfl, hpush, -⟩ := h.exists_push hcurrent
      obtain ⟨hf, hearlier⟩ := Array.forall_mem_push.mp (hpush ▸ h.figures)
      refine of_none rfl (h.finite_startOf _) ?_
      simp only [hpush, modify_push_size]
      exact Array.forall_mem_push.mpr ⟨hf, hearlier⟩
  | closeAllFigures =>
    refine of_none rfl ?_ ?_
    · simp only [Pen.marked]
      cases pen.current with
      | none => exact h.cursor
      | some i => exact h.finite_startOf i
    · exact Array.forall_mem_map.mpr h.figures
  | setTransform m => exact h.setTransform m

/-- A run keeps a pen tidy. -/
theorem attemptAll (h : pen.Tidy) (actions : List PenAction) : (pen.attemptAll actions).Tidy :=
  attemptAll_induction (fun _ _ h hmark => h.marked hmark) h actions

end Tidy

end Pen

end VectorScene
