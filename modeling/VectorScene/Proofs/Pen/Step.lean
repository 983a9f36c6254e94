import VectorScene.Pen
import VectorScene.Proofs.Fallible

/-!
# Steps of a pen

An action either fails and leaves the pen as it was, or it leaves a mark. A `PenMark` is an action in
final coordinates, and `Pen.marked` is the pen after it, which cannot fail.

* `PenAction.resolve` places all points of an action under a transform and reads nothing else of the
  pen;
* `PenAction.perform_eq`: an action is performed by resolving it first.
-/

namespace VectorScene

def Segment.Finite (s : Segment) : Prop := ∀ p ∈ s.points, p.isFinite

theorem Segment.Finite.target {s : Segment} (h : s.Finite) : s.target.isFinite := by
  apply h
  cases s <;> simp [points, Segment.target]

/-! ## Marks -/

/-- An action whose points are placed. -/
inductive PenMark where
  | moveTo (p : Point)
  | draw (segment : Segment)
  | arc (first : Point) (curves : List Segment) (last : Point)
  | startFigure
  | closeFigure
  | closeAllFigures
  | setTransform (m : Affine)

/-- The mark of an action under a transform. -/
def PenAction.resolve (m : Affine) : PenAction → Except GeometryError PenMark
  | moveTo p => return .moveTo (← m.place .moveTo p)
  | draw s => return .draw (← s.mapM (m.place s.subject))
  | arcTo a => do
    a.check
    let first ← m.place .arcTo a.first
    let last ← m.place .arcTo a.last
    return .arc first (← a.curves.mapM (Segment.mapM (m.place .arcTo))) last
  | startFigure => return .startFigure
  | closeFigure => return .closeFigure
  | closeAllFigures => return .closeAllFigures
  | setTransform m => return .setTransform m

namespace Pen

/-- The pen after segments are added to the open figure. -/
def extended (pen : Pen) (segments : List Segment) : Pen :=
  match pen.current with
  | some i =>
    { pen with
      figures := pen.figures.modify i fun f => { f with segments := f.segments ++ segments } }
  | none =>
    { pen with
      figures := pen.figures.push { start := pen.cursor, segments := segments.toArray }
      current := some pen.figures.size }

/-- The pen after a segment is drawn. -/
def drawn (pen : Pen) (segment : Segment) : Pen :=
  { pen.extended [segment] with cursor := segment.target }

/-- The pen after it is brought to the start of an arc. -/
def joined (pen : Pen) (first : Point) : Pen :=
  if pen.current.isSome then pen.drawn (.line first) else { pen with cursor := first }

def marked (pen : Pen) : PenMark → Pen
  | .moveTo p => { pen with current := none, cursor := p }
  | .draw s => pen.drawn s
  | .arc first curves last => { (pen.joined first).extended curves with cursor := last }
  | .startFigure => { pen with current := none }
  | .closeFigure =>
    match pen.current with
    | some i =>
      { pen with
        cursor := pen.startOf i
        figures := pen.figures.modify i fun f => { f with closed := true }
        current := none }
    | none => pen
  | .closeAllFigures =>
    { pen with
      cursor := match pen.current with
        | some i => pen.startOf i
        | none => pen.cursor
      figures := pen.figures.map fun f => { f with closed := true }
      current := none }
  | .setTransform m => { pen with transform := m }

/-! ## Performing actions -/

theorem place_apply (subject : Subject) (p : Point) (pen : Pen) :
    place subject p pen = outcomeAt pen (pen.transform.place subject p) :=
  ofExcept_apply (pen.transform.place subject p) pen

theorem mapM_place_apply (subject : Subject) (s : Segment) (pen : Pen) :
    s.mapM (place subject) pen = outcomeAt pen (s.mapM (pen.transform.place subject)) := by
  cases s with
  | line p => exact bind_outcomeAt (place_apply subject p pen) fun _ => rfl
  | quadratic c p =>
    exact bind_outcomeAt (place_apply subject c pen) fun _ =>
      bind_outcomeAt (place_apply subject p pen) fun _ => rfl
  | cubic c₁ c₂ p =>
    exact bind_outcomeAt (place_apply subject c₁ pen) fun _ =>
      bind_outcomeAt (place_apply subject c₂ pen) fun _ =>
        bind_outcomeAt (place_apply subject p pen) fun _ => rfl

theorem modify_push_size {α : Type} (xs : Array α) (x : α) (f : α → α) :
    (xs.push x).modify xs.size f = xs.push (f x) := by
  apply Array.ext
  · simp
  · intro i h₁ h₂
    rw [Array.getElem_modify, Array.getElem_push, Array.getElem_push]
    grind

theorem extend_apply (segments : List Segment) (pen : Pen) :
    extend segments pen = .ok () (pen.extended segments) := by
  obtain ⟨figures, current, cursor, transform⟩ := pen
  cases current with
  | some i => rfl
  | none =>
    have hpush : (figures.push { start := cursor }).modify figures.size
          (fun f => { f with segments := f.segments ++ segments }) =
        figures.push { start := cursor, segments := segments.toArray } := by
      simp [modify_push_size]
    exact congrArg
      (fun fs => EStateM.Result.ok () (Pen.mk fs (some figures.size) cursor transform)) hpush

theorem push_apply (segment : Segment) (pen : Pen) :
    push segment pen = .ok () (pen.drawn segment) :=
  bind_of_ok (extend_apply [segment] pen) _

/-- What an arc does when all its points are placed. -/
theorem finishArc_apply (first : Point) (curves : List Segment) (last : Point) (pen : Pen) :
    (do
      if (← get).current.isSome then push (.line first) else setCursor first
      extend curves
      setCursor last : PenM Unit) pen = .ok () (pen.marked (.arc first curves last)) := by
  have hget : (get : PenM Pen) pen = .ok pen pen := rfl
  rw [bind_of_ok hget, marked, joined]
  split
  · rw [bind_of_ok (push_apply (.line first) pen)]
    exact bind_of_ok (extend_apply curves _) _
  · have hcursor : setCursor first pen = .ok () { pen with cursor := first } := rfl
    rw [bind_of_ok hcursor]
    exact bind_of_ok (extend_apply curves _) _

end Pen

/-- An action that fails leaves the pen as it was, and any other leaves its mark. -/
theorem PenAction.perform_eq (a : PenAction) (pen : Pen) :
    a.perform pen =
      match a.resolve pen.transform with
      | .ok mark => .ok () (pen.marked mark)
      | .error e => .error e pen := by
  cases a with
  | moveTo p =>
    rw [perform, Pen.moveTo, bind_apply _ (Pen.place_apply .moveTo p pen), resolve]
    cases pen.transform.place .moveTo p <;> rfl
  | draw s =>
    rw [perform, Pen.draw, bind_apply _ (Pen.mapM_place_apply s.subject s pen), resolve]
    cases s.mapM (pen.transform.place s.subject) with
    | error e => rfl
    | ok segment => exact Pen.push_apply segment pen
  | arcTo a =>
    have hcurves := mapM_outcomeAt (fun s => Pen.mapM_place_apply .arcTo s pen) a.curves
    rw [perform, Pen.arcTo, bind_apply _ (ofExcept_apply a.check pen), resolve]
    obtain e | _ := a.check
    · rfl
    simp only [bind_apply _ (Pen.place_apply .arcTo a.first pen)]
    obtain e | first := pen.transform.place .arcTo a.first
    · rfl
    simp only [bind_apply _ (Pen.place_apply .arcTo a.last pen)]
    obtain e | last := pen.transform.place .arcTo a.last
    · rfl
    simp only [bind_apply _ hcurves]
    obtain e | curves := a.curves.mapM (Segment.mapM (pen.transform.place .arcTo))
    · rfl
    exact Pen.finishArc_apply first curves last pen
  | startFigure => rfl
  | closeFigure => rfl
  | closeAllFigures => rfl
  | setTransform m => rfl

theorem PenAction.perform_eq_ok_iff {a : PenAction} {pen pen' : Pen} :
    a.perform pen = .ok () pen' ↔
      ∃ mark, a.resolve pen.transform = .ok mark ∧ pen' = pen.marked mark := by
  rw [a.perform_eq]
  cases a.resolve pen.transform with
  | ok mark =>
    refine ⟨fun h => ⟨mark, rfl, ?_⟩, ?_⟩
    · cases h
      rfl
    · rintro ⟨_, ⟨⟩, rfl⟩
      rfl
  | error e => exact ⟨nofun, nofun⟩

/-! ## Finite points -/

/-- All points of a mark are finite. -/
def PenMark.Finite : PenMark → Prop
  | moveTo p => p.isFinite
  | draw s => s.Finite
  | arc first curves last => first.isFinite ∧ (∀ s ∈ curves, s.Finite) ∧ last.isFinite
  | _ => True

end VectorScene
