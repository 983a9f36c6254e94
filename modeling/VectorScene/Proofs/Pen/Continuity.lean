import VectorScene.Proofs.Path.Reading
import VectorScene.Proofs.Pen.Tidy

/-!
# Where the cursor is

What a pen draws next continues its outline if the cursor is where the open figure ends: such a pen is
connected (`Pen.Connected`). A mark leaves a connected pen connected, with one exception. The cursor after
an arc is the point that is sampled at the end of its sweep, and its curves end at a point that is sampled
at the angle of the last division: after a full turn at the latest, and in any case at an angle that is
rounded in another way. An arc lands if a transform places both at one point (`Arc.Lands`), and a pen is
connected all the way exactly if all its arcs land (`Pen.connected_after_iff`).
-/

namespace VectorScene

theorem Segment.endOf_map (f : Point → Point) (source : Point) (segments : List Segment) :
    endOf (f source) (segments.map (map f)) = f (endOf source segments) := by
  induction segments generalizing source with
  | nil => rfl
  | cons s segments ih =>
    have htarget : (s.map f).target = f s.target := by cases s <;> rfl
    show endOf (s.map f).target _ = _
    rw [htarget]
    exact ih s.target

/-! ## Arcs -/

namespace Arc

variable {a : Arc}

/-- The point at which the curves of the arc end. -/
def curvesEnd (a : Arc) : Point := Segment.endOf a.first a.curves

/-- Whether the end of the sweep and the end of the curves are placed at the same point. -/
def Lands (a : Arc) (m : Affine) : Prop := m.apply a.last = m.apply a.curvesEnd

instance (a : Arc) (m : Affine) : Decidable (a.Lands m) := inferInstanceAs (Decidable (_ = _))

theorem curvesEnd_eq (a : Arc) :
    a.curvesEnd =
      if a.curveCount = 0 then a.first
      else a.pointAt (a.startAngle + a.step * Scalar.ofNat a.curveCount) := by
  rw [curvesEnd, curves]
  cases a.curveCount with
  | zero => rfl
  | succ n =>
    rw [List.range_succ, List.map_append, Segment.endOf_append]
    rfl

/-- An arc that sweeps nothing has no curves, and its start is its end. -/
theorem lands_of_sweep_zero (h : a.sweepAngle = 0 ∨ a.sweepAngle = -0) (m : Affine) : a.Lands m := by
  have hnone : a.curveCount = 0 := by
    show Scalar.toNat (Scalar.ceil (Scalar.lesser a.sweepAngle.abs Scalar.turn / _)) = 0
    obtain h | h := h <;> rw [h] <;> decide +kernel
  have hangle : a.sweepAngle * 1 = a.sweepAngle * 0 := by
    obtain h | h := h <;> rw [h] <;> decide +kernel
  rw [Lands, curvesEnd_eq, if_pos hnone, last, hangle]
  rfl

/-- The curves of an arc that sweeps a full turn, or more, end after one turn. -/
theorem curvesEnd_of_turn (h : Scalar.turn < a.sweepAngle.abs ∨ a.sweepAngle.abs = Scalar.turn) :
    a.curvesEnd =
      a.pointAt (a.startAngle +
        if a.sweepAngle.toBits &&& 0x80000000 == 0 then Scalar.turn else -Scalar.turn) := by
  have hextent : a.extent = Scalar.turn := by
    rw [extent, Scalar.lesser]
    obtain h | h := h
    · rw [if_pos h, ite_self]
    · rw [h]
      decide +kernel
  have hcount : a.curveCount = 8 := by
    rw [curveCount, hextent]
    decide +kernel
  have hangle : a.step * Scalar.ofNat 8 =
      if a.sweepAngle.toBits &&& 0x80000000 == 0 then Scalar.turn else -Scalar.turn := by
    rw [step, hextent]
    split <;> decide +kernel
  rw [curvesEnd_eq, hcount, if_neg (by decide), hangle]

/-- An arc that sweeps exactly a full turn ends where its curves end. -/
theorem lands_of_sweep_turn (h : a.sweepAngle = Scalar.turn ∨ a.sweepAngle = -Scalar.turn)
    (m : Affine) : a.Lands m := by
  have habs : a.sweepAngle.abs = Scalar.turn := by
    obtain h | h := h <;> rw [h] <;> decide +kernel
  have hangle : a.sweepAngle * 1 =
      if a.sweepAngle.toBits &&& 0x80000000 == 0 then Scalar.turn else -Scalar.turn := by
    obtain h | h := h <;> rw [h] <;> decide +kernel
  rw [Lands, curvesEnd_of_turn (.inr habs), last, hangle]

end Arc

/-! ## Pens -/

/-- The point at which the figure ends so far. -/
def Figure.last (f : Figure) : Point := Segment.endOf f.start f.segments.toList

/-- Whether an arc ends where its curves end. -/
def PenMark.Lands : PenMark → Prop
  | arc first curves last => last = Segment.endOf first curves
  | _ => True

namespace Pen

variable {pen : Pen}

/-- The figure to which segments are added. -/
def openFigure? (pen : Pen) : Option Figure := pen.current.bind fun i => pen.figures[i]?

/-- Whether the cursor is where the open figure ends, if one is open. -/
def Connected (pen : Pen) : Prop := ∀ f ∈ pen.openFigure?, pen.cursor = f.last

instance (pen : Pen) : Decidable pen.Connected :=
  inferInstanceAs (Decidable (∀ f ∈ pen.openFigure?, pen.cursor = f.last))

/-- The point from which the outline is continued: the end of the open figure, or the cursor. -/
def reached (pen : Pen) : Point := (pen.openFigure?.map Figure.last).getD pen.cursor

theorem openFigure?_of_none (h : pen.current = none) : pen.openFigure? = none := by
  rw [openFigure?, h]
  rfl

theorem openFigure?_of_push {earlier : Array Figure} {f : Figure}
    (hcurrent : pen.current = some earlier.size) (hpush : pen.figures = earlier.push f) :
    pen.openFigure? = some f := by
  rw [openFigure?, hcurrent, hpush]
  exact Array.getElem?_push_size

theorem connected_of_none (h : pen.current = none) : pen.Connected := by
  rw [Connected, openFigure?_of_none h]
  exact nofun

theorem connected_iff_of_openFigure? {f : Figure} (h : pen.openFigure? = some f) :
    pen.Connected ↔ pen.cursor = f.last := by
  rw [Connected, h]
  refine ⟨fun hall => hall f rfl, fun heq g hg => ?_⟩
  cases hg
  exact heq

namespace Tidy

/-- Segments continue the outline from the point that is reached. -/
theorem openFigure?_extended (h : pen.Tidy) (segments : List Segment) :
    ∃ f, (pen.extended segments).openFigure? = some f ∧
      f.last = Segment.endOf pen.reached segments := by
  unfold Pen.extended
  cases hcurrent : pen.current with
  | none =>
    refine ⟨_, openFigure?_of_push rfl rfl, ?_⟩
    rw [reached, openFigure?_of_none hcurrent]
    rfl
  | some i =>
    obtain ⟨earlier, f, rfl, hpush, -⟩ := h.exists_push hcurrent
    simp only [hpush, modify_push_size]
    refine ⟨_, openFigure?_of_push rfl rfl, ?_⟩
    rw [reached, openFigure?_of_push hcurrent hpush, Figure.last, Array.toList_appendList,
      Segment.endOf_append]
    rfl

theorem reached_joined (h : pen.Tidy) (first : Point) : (pen.joined first).reached = first := by
  unfold Pen.joined
  split
  · obtain ⟨f, hf, hlast⟩ := h.openFigure?_extended [.line first]
    have hopen : (pen.drawn (.line first)).openFigure? = some f := hf
    rw [reached, hopen]
    exact hlast
  · rename_i hcurrent
    have hnone : openFigure? { pen with cursor := first } = none :=
      openFigure?_of_none (Option.not_isSome_iff_eq_none.mp hcurrent)
    rw [reached, hnone]
    rfl

/-- After an arc the cursor is at its end, and the open figure at the end of its curves. -/
theorem openFigure?_marked_arc (h : pen.Tidy) {first : Point} (hfirst : first.isFinite)
    (curves : List Segment) (last : Point) :
    ∃ f, (pen.marked (.arc first curves last)).openFigure? = some f ∧
      f.last = Segment.endOf first curves := by
  obtain ⟨f, hf, hlast⟩ := (h.joined hfirst).openFigure?_extended curves
  rw [h.reached_joined first] at hlast
  exact ⟨f, hf, hlast⟩

/-- A mark keeps a pen connected, unless it is that of an arc that does not land. -/
theorem connected_marked_iff (h : pen.Tidy) (hconnected : pen.Connected) {mark : PenMark}
    (hmark : mark.Finite) : (pen.marked mark).Connected ↔ mark.Lands := by
  cases mark with
  | moveTo p => exact ⟨fun _ => trivial, fun _ => connected_of_none rfl⟩
  | draw s =>
    refine ⟨fun _ => trivial, fun _ => ?_⟩
    obtain ⟨f, hf, hlast⟩ := h.openFigure?_extended [s]
    have hopen : (pen.marked (.draw s)).openFigure? = some f := hf
    exact (connected_iff_of_openFigure? hopen).mpr hlast.symm
  | arc first curves last =>
    obtain ⟨f, hf, hlast⟩ := h.openFigure?_marked_arc hmark.1 curves last
    rw [connected_iff_of_openFigure? hf, hlast]
    exact Iff.rfl
  | startFigure => exact ⟨fun _ => trivial, fun _ => connected_of_none rfl⟩
  | closeFigure =>
    refine ⟨fun _ => trivial, fun _ => ?_⟩
    simp only [Pen.marked]
    cases hcurrent : pen.current with
    | none => exact hconnected
    | some i => exact connected_of_none rfl
  | closeAllFigures => exact ⟨fun _ => trivial, fun _ => connected_of_none rfl⟩
  | setTransform m => exact ⟨fun _ => trivial, fun _ => hconnected⟩

/-- A run keeps a pen connected if every mark that it makes lands. -/
theorem connected_attemptAll (h : pen.Tidy) (hconnected : pen.Connected) {actions : List PenAction}
    (hlands : ∀ before a later, actions = before ++ a :: later →
      ∀ mark, PenAction.resolve (pen.attemptAll before).transform a = .ok mark → mark.Lands) :
    (pen.attemptAll actions).Connected := by
  induction actions generalizing pen with
  | nil => exact hconnected
  | cons a actions ih =>
    rw [attemptAll_cons]
    refine ih (h.attemptAll [a]) ?_ fun before b later heq => ?_
    · cases ha : a.resolve pen.transform with
      | ok mark =>
        rw [attempt_of_resolve ha]
        exact (h.connected_marked_iff hconnected (a.finite_of_resolve ha)).mpr
          (hlands [] a actions rfl mark ha)
      | error e => rwa [attempt_of_resolve_error ha]
    · exact hlands (a :: before) b later (congrArg (a :: ·) heq)

end Tidy

end Pen

/-- What an action leaves lands unless it is an arc that does not. -/
theorem PenAction.lands_of_resolve_iff {a : PenAction} {m : Affine} {mark : PenMark}
    (h : a.resolve m = .ok mark) : mark.Lands ↔ ∀ arc, a = .arcTo arc → arc.Lands m := by
  obtain ⟨-, rfl⟩ := resolve_eq_ok_iff.mp h
  cases a with
  | arcTo arc =>
    show m.apply arc.last = Segment.endOf (m.apply arc.first) (arc.curves.map (Segment.map m.apply)) ↔ _
    rw [Segment.endOf_map]
    exact ⟨fun hlands b hb => by cases hb; exact hlands, fun hlands => hlands arc rfl⟩
  | _ => exact ⟨fun _ => nofun, fun _ => trivial⟩

namespace Pen

theorem after_concat (actions : List PenAction) (a : PenAction) :
    after (actions ++ [a]) = (after actions).attempt a := attemptAll_append {} actions [a]

theorem tidy_after (actions : List PenAction) : (after actions).Tidy := Tidy.new.attemptAll actions

/-- After an arc the cursor is at the image of its end, and the open figure at that of its curves' end. -/
theorem Tidy.ends_of_perform_arcTo {pen pen' : Pen} (h : pen.Tidy) {a : Arc}
    (hperform : (PenAction.arcTo a).perform pen = .ok () pen') :
    pen'.cursor = pen.transform.apply a.last ∧
      ∃ f, pen'.openFigure? = some f ∧ f.last = pen.transform.apply a.curvesEnd := by
  obtain ⟨mark, hmark, rfl⟩ := PenAction.perform_eq_ok_iff.mp hperform
  have hfinite := PenAction.finite_of_resolve hmark
  obtain ⟨-, rfl⟩ := PenAction.resolve_eq_ok_iff.mp hmark
  obtain ⟨f, hf, hlast⟩ := h.openFigure?_marked_arc hfinite.1
    (a.curves.map (Segment.map pen.transform.apply)) (pen.transform.apply a.last)
  rw [Segment.endOf_map] at hlast
  exact ⟨rfl, f, hf, hlast⟩

/-- A segment that is drawn while no figure is open starts one at the cursor. -/
theorem openFigure?_of_perform_draw {pen pen' : Pen} (h : pen.current = none) {s : Segment}
    (hperform : (PenAction.draw s).perform pen = .ok () pen') :
    pen'.openFigure? = some { start := pen.cursor, segments := #[s.map pen.transform.apply] } := by
  obtain ⟨mark, hmark, rfl⟩ := PenAction.perform_eq_ok_iff.mp hperform
  obtain ⟨-, rfl⟩ := PenAction.resolve_eq_ok_iff.mp hmark
  show (pen.drawn _).openFigure? = _
  rw [drawn, extended, h]
  exact openFigure?_of_push rfl rfl

/-- A run of a new pen is connected all the way exactly if every arc that it accepts lands. -/
theorem connected_prefixes_iff (actions : List PenAction) :
    (∀ before later, actions = before ++ later → (after before).Connected) ↔
      ∀ before a later, actions = before ++ .arcTo a :: later →
        (∃ pen, (PenAction.arcTo a).perform (after before) = .ok () pen) →
          a.Lands (after before).transform := by
  refine ⟨fun hconnected before a later heq => ?_, fun hlands before later heq => ?_⟩
  · rintro ⟨pen, hperform⟩
    obtain ⟨mark, hmark, rfl⟩ := PenAction.perform_eq_ok_iff.mp hperform
    have hbefore := hconnected before (.arcTo a :: later) heq
    have hafter := hconnected (before ++ [.arcTo a]) later (by rw [heq, List.append_assoc]; rfl)
    rw [after_concat, attempt_of_resolve hmark,
      (tidy_after before).connected_marked_iff hbefore (PenAction.finite_of_resolve hmark)] at hafter
    exact (PenAction.lands_of_resolve_iff hmark).mp hafter a rfl
  · refine Tidy.new.connected_attemptAll (connected_of_none rfl) fun first a rest hsplit mark hmark => ?_
    rw [PenAction.lands_of_resolve_iff hmark]
    rintro arc rfl
    exact hlands first arc (rest ++ later) (by rw [heq, hsplit, List.append_assoc]; rfl)
      ⟨_, PenAction.perform_eq_ok_iff.mpr ⟨mark, hmark, rfl⟩⟩

/-- A new pen, given any actions in any order, of which some may fail, is connected all the way exactly if
every arc that it accepts lands under the transform of that moment. After an arc the cursor is where the
transform places the end of the sweep, and the open figure ends where it places the end of the curves. A
segment that is drawn after `startFigure` starts its figure at the cursor, so where a connected pen has
left off. The curves of an arc end at the angle of the last division, and after one full turn if it sweeps
more; an arc that sweeps nothing lands, and so does one that sweeps exactly a full turn. -/
theorem connected_after_iff (actions : List PenAction) :
    ((∀ before later, actions = before ++ later → (after before).Connected) ↔
      ∀ before a later, actions = before ++ .arcTo a :: later →
        (∃ pen, (PenAction.arcTo a).perform (after before) = .ok () pen) →
          a.Lands (after before).transform) ∧
    (∀ a pen, (PenAction.arcTo a).perform (after actions) = .ok () pen →
      pen.cursor = (after actions).transform.apply a.last ∧
      ∃ f, pen.openFigure? = some f ∧ f.last = (after actions).transform.apply a.curvesEnd) ∧
    (∀ s pen, (PenAction.draw s).perform (after (actions ++ [.startFigure])) = .ok () pen →
      pen.openFigure? = some
        { start := (after actions).cursor, segments := #[s.map (after actions).transform.apply] }) ∧
    ∀ a : Arc,
      (a.curvesEnd = if a.curveCount = 0 then a.first
        else a.pointAt (a.startAngle + a.step * Scalar.ofNat a.curveCount)) ∧
      (Scalar.turn < a.sweepAngle.abs → a.curvesEnd = a.pointAt (a.startAngle +
        if a.sweepAngle.toBits &&& 0x80000000 == 0 then Scalar.turn else -Scalar.turn)) ∧
      (a.sweepAngle ∈ [0, -0, Scalar.turn, -Scalar.turn] → ∀ m, a.Lands m) := by
  refine ⟨connected_prefixes_iff actions, fun a pen => (tidy_after actions).ends_of_perform_arcTo,
    fun s pen hperform => ?_,
    fun a => ⟨a.curvesEnd_eq, fun hturn => Arc.curvesEnd_of_turn (.inl hturn), fun hsweep => ?_⟩⟩
  · rw [after_concat] at hperform
    exact @openFigure?_of_perform_draw { after actions with current := none } pen rfl s hperform
  · simp only [List.mem_cons, List.not_mem_nil, or_false] at hsweep
    obtain h | h | h | h := hsweep
    · exact Arc.lands_of_sweep_zero (.inl h)
    · exact Arc.lands_of_sweep_zero (.inr h)
    · exact Arc.lands_of_sweep_turn (.inl h)
    · exact Arc.lands_of_sweep_turn (.inr h)

/-- A line, a full circle that it is joined to, an arc that is refused, and a line from where the circle
ended. -/
def roundTrip : List PenAction :=
  [.draw (.line ⟨5, 0⟩), .arcTo (.circle ⟨10, 0⟩ 2), .arcTo (.circle ⟨0, 0⟩ (-1)), .startFigure,
    .draw (.line ⟨0, 1⟩)]

theorem connected_after_roundTrip :
    ∀ before later, roundTrip = before ++ later → (after before).Connected := by
  obtain ⟨hiff, -, -, harcs⟩ := connected_after_iff roundTrip
  refine hiff.mpr fun before a later heq _ => ?_
  have hmem : PenAction.arcTo a ∈ roundTrip := by simp [heq]
  have hsweep : a.sweepAngle = Scalar.turn := by
    simp only [roundTrip, List.mem_cons, reduceCtorEq, PenAction.arcTo.injEq, false_or, or_false,
      List.not_mem_nil] at hmem
    obtain rfl | rfl := hmem <;> rfl
  exact (harcs a).2.2 (by simp [hsweep]) _

/-- One and a half turns of a circle. -/
def longArc : Arc := ⟨⟨0, 0⟩, ⟨1, 1⟩, 0, 0, 9.424778⟩

/-- The curves stop after one turn, at the right of the circle, and the cursor is at its left. -/
theorem not_connected_after_longArc :
    ¬ (after [.arcTo longArc]).Connected ∧ (after [.arcTo longArc]).cursor.x = -1 ∧
      ∃ f, (after [.arcTo longArc]).openFigure? = some f ∧ f.last.x = 1 := by
  have hends : ((after [.arcTo longArc]).openFigure?.map fun f => f.last.x) = some 1 ∧
      (after [.arcTo longArc]).cursor.x = -1 := by decide +kernel
  obtain ⟨hlast, hcursor⟩ := hends
  obtain ⟨f, hf, hx⟩ := Option.map_eq_some_iff.mp hlast
  refine ⟨fun hconnected => ?_, hcursor, f, hf, hx⟩
  rw [(connected_iff_of_openFigure? hf).mp hconnected, hx] at hcursor
  exact absurd hcursor (by decide +kernel)

end Pen

end VectorScene
