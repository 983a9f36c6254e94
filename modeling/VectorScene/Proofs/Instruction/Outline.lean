import VectorScene.Proofs.Instruction.Marks
import VectorScene.Proofs.Overflow
import VectorScene.Proofs.Path.Closing

/-!
# The outline of an instruction

A pen keeps the cursor and the starts of its figures in final coordinates, and is fed local ones.
Nothing comes of this: mapping the points of a pen and then making a mapped mark is making the mark and
then mapping the points (`Pen.marked_map`). Only the cursor of a new pen is not mapped, which nothing
shows if no segment starts there (`Pen.build_markedAll_of_cursor`).

So an instruction without transforms in it has an outline, `Instruction.outline`, which does not
depend on any transform, and under each transform that places its points it constructs the outline
mapped by it (`Instruction.construct_setTransform_eq_ok_iff`).
-/

namespace VectorScene

/-! ## Mapped pens -/

/-- The path with each point mapped. -/
def Path.map (f : Point → Point) (p : Path) : Path := ⟨p.commands.map (Command.map f)⟩

namespace Figure

variable (f : Point → Point)

def map (figure : Figure) : Figure :=
  ⟨f figure.start, figure.segments.map (Segment.map f), figure.closed⟩

theorem isDrawn_map (figure : Figure) : (figure.map f).isDrawn = figure.isDrawn := by
  rw [isDrawn, isDrawn, map, Array.isEmpty, Array.isEmpty, Array.size_map]

theorem commands_map (figure : Figure) :
    (figure.map f).commands = figure.commands.map (Command.map f) := by
  cases h : figure.isDrawn with
  | false => rw [commands_of_not_isDrawn h, commands_of_not_isDrawn (isDrawn_map f figure ▸ h)]; rfl
  | true =>
    rw [commands_of_isDrawn h, commands_of_isDrawn (isDrawn_map f figure ▸ h)]
    cases hclosed : figure.closed <;> simp [map, Command.map, hclosed]

theorem append_segments_map (segments : List Segment) (figure : Figure) :
    { figure.map f with segments := (figure.map f).segments ++ segments.map (Segment.map f) } =
      Figure.map f { figure with segments := figure.segments ++ segments } :=
  congrArg (Figure.mk (f figure.start) · figure.closed) (Array.ext' (by simp [map]))

end Figure

namespace Pen

variable (f : Point → Point)

/-- The pen with the cursor and each point of its figures mapped. -/
def map (pen : Pen) : Pen :=
  { pen with figures := pen.figures.map (Figure.map f), cursor := f pen.cursor }

theorem build_map (pen : Pen) : (pen.map f).build = pen.build.map f := by
  simp only [build, map, Path.map, Array.toList_map, List.flatMap_map, List.map_flatMap,
    Figure.commands_map]

/-- Changing an item and mapping all of them can be done in either order. -/
theorem modify_map {α β : Type} {g : α → β} {change : α → α} {changed : β → β}
    (h : ∀ x, changed (g x) = g (change x)) (xs : Array α) (i : Nat) :
    (xs.map g).modify i changed = (xs.modify i change).map g := by
  apply Array.ext
  · simp
  · intro j h₁ h₂
    simp only [Array.getElem_modify, Array.getElem_map]
    split
    · exact h _
    · rfl

theorem startOf_map (pen : Pen) (i : Nat) : (pen.map f).startOf i = f (pen.startOf i) := by
  rw [startOf, startOf, map, Array.getElem?_map]
  cases pen.figures[i]? <;> rfl

theorem extended_map (pen : Pen) (segments : List Segment) :
    (pen.map f).extended (segments.map (Segment.map f)) = (pen.extended segments).map f := by
  obtain ⟨figures, current, cursor, transform⟩ := pen
  cases current with
  | none => simp [extended, map, Figure.map]
  | some i =>
    simp only [extended, map]
    rw [modify_map (Figure.append_segments_map f segments)]

theorem drawn_map (pen : Pen) (s : Segment) : (pen.map f).drawn (s.map f) = (pen.drawn s).map f := by
  have htarget : (s.map f).target = f s.target := by cases s <;> rfl
  rw [drawn, drawn, htarget]
  exact congrArg (fun pen : Pen => { pen with cursor := f s.target }) (extended_map f pen [s])

theorem joined_map (pen : Pen) (first : Point) :
    (pen.map f).joined (f first) = (pen.joined first).map f := by
  have hcurrent : (pen.map f).current = pen.current := rfl
  rw [joined, joined, hcurrent]
  split
  · exact drawn_map f pen (.line first)
  · rfl

/-- A mapped mark on a mapped pen leaves what the mark leaves, mapped. -/
theorem marked_map (pen : Pen) (mark : PenMark) :
    (pen.map f).marked (mark.map f) = (pen.marked mark).map f := by
  cases mark with
  | moveTo p => rfl
  | draw s => exact drawn_map f pen s
  | arc first curves last =>
    rw [PenMark.map, marked, joined_map, extended_map]
    rfl
  | startFigure => rfl
  | closeFigure =>
    have hstart := pen.startOf_map f
    obtain ⟨figures, current, cursor, transform⟩ := pen
    cases current with
    | none => rfl
    | some i =>
      simp only [marked, PenMark.map, map] at hstart ⊢
      rw [hstart]
      have hclosed : ∀ figure : Figure, (figure.map f).close = figure.close.map f := fun _ => rfl
      exact congrArg (fun figures => Pen.mk figures none _ transform) (modify_map hclosed figures i)
  | closeAllFigures =>
    have hstart := pen.startOf_map f
    obtain ⟨figures, current, cursor, transform⟩ := pen
    cases current with
    | none => simp [marked, PenMark.map, map, Figure.map, Function.comp_def]
    | some i =>
      simp only [marked, PenMark.map, map] at hstart ⊢
      rw [hstart]
      simp [Figure.map, Function.comp_def]
  | setTransform m => rfl

theorem markedAll_map (pen : Pen) (marks : List PenMark) :
    (pen.map f).markedAll (marks.map (PenMark.map f)) = (pen.markedAll marks).map f := by
  induction marks generalizing pen with
  | nil => rfl
  | cons mark marks ih => rw [List.map_cons, markedAll_cons, marked_map, ih, markedAll_cons]

end Pen

/-! ## The start of a run -/

namespace PenMark

/-- Whether the mark has points, which the cursor goes to. -/
def hasPoints : PenMark → Bool
  | moveTo _ => true
  | draw _ => true
  | arc _ _ _ => true
  | _ => false

theorem hasPoints_map (mark : PenMark) (f : Point → Point) :
    (mark.map f).hasPoints = mark.hasPoints := by
  cases mark <;> rfl

/-- Whether the first mark that has points, if there is one, puts the cursor at one of them before it
draws anything. -/
def StartsPlaced (marks : List PenMark) : Prop := ∀ s, marks.find? hasPoints ≠ some (.draw s)

theorem StartsPlaced.map {marks : List PenMark} (h : StartsPlaced marks) (f : Point → Point) :
    StartsPlaced (marks.map (PenMark.map f)) := by
  intro s hs
  have hpoints : hasPoints ∘ PenMark.map f = hasPoints := funext fun mark => mark.hasPoints_map f
  rw [List.find?_map, hpoints] at hs
  obtain ⟨mark, hfind, hmark⟩ := Option.map_eq_some_iff.mp hs
  cases mark with
  | draw t => exact h t hfind
  | _ => cases hmark

end PenMark

namespace Pen

/-- As long as there is no figure, the cursor shows only in a segment that starts there. -/
theorem build_markedAll_of_cursor {marks : List PenMark} (h : PenMark.StartsPlaced marks) (p q : Point)
    (m : Affine) :
    (markedAll { cursor := p, transform := m } marks).build =
      (markedAll { cursor := q, transform := m } marks).build := by
  induction marks generalizing m with
  | nil => rfl
  | cons mark marks ih =>
    cases mark with
    | moveTo r => rfl
    | draw s => exact absurd rfl (h s)
    | arc first curves last => rfl
    | startFigure => exact ih h m
    | closeFigure => exact ih h m
    | closeAllFigures =>
      have hnone : ∀ c, Pen.marked { cursor := c, transform := m } .closeAllFigures =
          { cursor := c, transform := m } := by simp [marked]
      rw [markedAll_cons, markedAll_cons, hnone, hnone]
      exact ih h m
    | setTransform n => exact ih h n

/-- Mapped marks build, with a new pen, what the marks build, mapped. -/
theorem build_markedAll_map {marks : List PenMark} (h : PenMark.StartsPlaced marks) (f : Point → Point) :
    (markedAll {} (marks.map (PenMark.map f))).build = (markedAll {} marks).build.map f := by
  have hnew : Pen.map f {} = { cursor := f Point.origin } := by simp [map]
  calc (markedAll {} (marks.map (PenMark.map f))).build
      = (markedAll (Pen.map f {}) (marks.map (PenMark.map f))).build := by
        rw [hnew]
        exact build_markedAll_of_cursor (h.map f) Point.origin (f Point.origin) Affine.identity
    _ = (markedAll {} marks).build.map f := by rw [markedAll_map, build_map]

end Pen

/-! ## Instructions without transforms -/

namespace PenAction

/-- Whether the action has points, which the cursor goes to. -/
def hasPoints (a : PenAction) : Bool := a.mark.hasPoints

end PenAction

namespace Instruction

/-- All transforms in an instruction: those that it sets, and those of its frames. -/
def frames : Instruction → List Affine
  | empty => []
  | act a => a.frame?.toList
  | within m i => m :: i.frames
  | seq a b => a.frames ++ b.frames

theorem sets_of_frames {i : Instruction} (h : i.frames = []) : i.sets = [] := by
  induction i with
  | empty => rfl
  | act a => exact h
  | within m i => rfl
  | seq a b iha ihb =>
    obtain ⟨ha, hb⟩ := List.append_eq_nil_iff.mp h
    rw [sets, iha ha, ihb hb]
    rfl

/-- Without transforms in it, all of an instruction has the frame in which it stands. -/
theorem frame_of_mem_occurrences {i : Instruction} (h : i.frames = []) (c : Context) :
    ∀ o ∈ i.occurrences c, o.1.frame = c.frame := by
  induction i generalizing c with
  | empty => nofun
  | act a =>
    intro o ho
    rw [occurrences] at ho
    split at ho
    · rw [List.mem_singleton.mp ho]
    · cases ho
  | within m i => cases h
  | seq a b iha ihb =>
    obtain ⟨ha, hb⟩ := List.append_eq_nil_iff.mp h
    intro o ho
    rcases List.mem_append.mp ho with ho | ho
    · exact iha ha (c.before b) o ho
    · rw [ihb hb (c.after a) o ho, c.frame_after, sets_of_frames ha]
      rfl

theorem frame?_of_frames {i : Instruction} (h : i.frames = []) : ∀ a ∈ i.actions, a.frame? = none := by
  induction i with
  | empty => nofun
  | act a =>
    intro b hb
    rw [List.mem_singleton.mp hb]
    exact Option.toList_eq_nil_iff.mp h
  | within m i => cases h
  | seq a b iha ihb =>
    obtain ⟨ha, hb⟩ := List.append_eq_nil_iff.mp h
    exact List.forall_mem_append.mpr ⟨iha ha, ihb hb⟩

/-- Without transforms in it, an instruction makes the marks of its actions under the transform that it
finds. -/
theorem marks_of_frames {i : Instruction} (h : i.frames = []) (m : Affine) :
    i.marks m = i.actions.mapM (PenAction.resolve m) := by
  have hactions : i.actions = (i.occurrences (.inside .top m)).map Prod.snd := by
    rw [map_snd_occurrences, List.filter_eq_self.mpr]
    exact fun a ha => Option.isNone_iff_eq_none.mpr (frame?_of_frames h a ha)
  have hmarks : (i.occurrences (.inside .top m)).map Occurrence.mark =
      i.actions.map (PenAction.resolve m) := by
    rw [hactions, List.map_map]
    refine List.map_congr_left fun o ho => ?_
    rw [Occurrence.mark, frame_of_mem_occurrences h _ o ho]
    rfl
  -- A list of steps is known by the steps, whatever they are the steps of.
  calc i.marks m = ((i.occurrences (.inside .top m)).map Occurrence.mark).mapM id := by
        rw [List.mapM_map]
        rfl
    _ = (i.actions.map (PenAction.resolve m)).mapM id := by rw [hmarks]
    _ = i.actions.mapM (PenAction.resolve m) := by
        rw [List.mapM_map]
        rfl

/-- Without transforms in it, an instruction leaves the marks of its actions, each with all its points
mapped, if all these points can be placed. -/
theorem marks_eq_ok_iff {i : Instruction} (h : i.frames = []) {m : Affine} {marks : List PenMark} :
    i.marks m = .ok marks ↔
      (∀ a ∈ i.actions, a.PlacedBy m) ∧
        marks = (i.actions.map PenAction.mark).map (PenMark.map m.apply) := by
  rw [marks_of_frames h, mapM_eq_ok_iff_of fun a mark => PenAction.resolve_eq_ok_iff, List.map_map]
  rfl

/-- The path that an instruction draws if all points are left as they are written. No transform takes
part in it, not even the identity. -/
def outline (i : Instruction) : Path := (Pen.markedAll {} (i.actions.map PenAction.mark)).build

/-- Whether the first action that has points, if there is one, moves the cursor or draws an arc. -/
def StartsPlaced (i : Instruction) : Prop :=
  ∀ s, i.actions.find? PenAction.hasPoints ≠ some (.draw s)

theorem StartsPlaced.marks {i : Instruction} (h : i.StartsPlaced) :
    PenMark.StartsPlaced (i.actions.map PenAction.mark) := by
  intro s hs
  rw [List.find?_map] at hs
  obtain ⟨a, hfind, hmark⟩ := Option.map_eq_some_iff.mp hs
  cases a with
  | draw t => exact h t hfind
  | _ => cases hmark

/-- Where all its marks can be placed, an instruction builds its outline mapped. -/
theorem build_marks_eq_ok_iff {i : Instruction} (hframes : i.frames = []) (hstart : i.StartsPlaced)
    {m : Affine} {p : Path} :
    ((i.marks m).map fun marks => (Pen.markedAll {} marks).build) = .ok p ↔
      (∀ a ∈ i.actions, a.PlacedBy m) ∧ p = i.outline.map m.apply := by
  have hmap : (Pen.markedAll {} ((i.actions.map PenAction.mark).map (PenMark.map m.apply))).build =
      i.outline.map m.apply := Pen.build_markedAll_map hstart.marks m.apply
  rw [map_eq_ok_iff]
  constructor
  · rintro ⟨marks, hmarks, rfl⟩
    obtain ⟨hplaced, rfl⟩ := (marks_eq_ok_iff hframes).mp hmarks
    exact ⟨hplaced, hmap⟩
  · rintro ⟨hplaced, rfl⟩
    exact ⟨_, (marks_eq_ok_iff hframes).mpr ⟨hplaced, rfl⟩, hmap⟩

/-- Construction commutes with the frame. For an instruction without transforms in it, which draws no
segment before it has moved the cursor or drawn an arc, there is one path, and under each transform
that places all its points the instruction constructs this path with each point mapped. -/
theorem construct_setTransform_eq_ok_iff {i : Instruction} (hframes : i.frames = [])
    (hstart : i.StartsPlaced) (m : Affine) (p : Path) :
    (seq (act (.setTransform m)) i).construct = .ok p ↔
      (∀ a ∈ i.actions, a.PlacedBy m) ∧
        p.commands = i.outline.commands.map (Command.map m.apply) := by
  rw [construct_setTransform_seq_eq_marks, build_marks_eq_ok_iff hframes hstart, Path.map]
  exact and_congr_right fun _ => ⟨fun h => congrArg Path.commands h, fun h => congrArg Path.mk h⟩

/-- A disc, a line from where it was closed, and a line after the next close of all figures. -/
def button : Instruction :=
  .sequence
    [act .closeAllFigures, act .startFigure, act (.arcTo (Arc.circle ⟨2, 2⟩ 1)), act .closeFigure,
      lineTo ⟨5, 2⟩, act .closeAllFigures, lineTo ⟨2, 5⟩]

theorem construct_button_scaled :
    button.frames = [] ∧ button.StartsPlaced ∧
    ∃ p, (seq (act (.setTransform (.scale 2 3))) button).construct = .ok p ∧
      p.figureCount = 3 ∧
      p.commands = button.outline.commands.map (Command.map (Affine.apply (.scale 2 3))) := by
  have hframes : button.frames = [] := rfl
  have hstart : button.StartsPlaced := nofun
  have hcount : (seq (act (.setTransform (.scale 2 3))) button).construct.toOption.map
      Path.figureCount = some 3 := by decide +kernel
  cases hp : (seq (act (.setTransform (.scale 2 3))) button).construct with
  | error e => rw [hp] at hcount; cases hcount
  | ok p =>
    rw [hp] at hcount
    exact ⟨hframes, hstart, p, rfl, Option.some.inj hcount,
      ((construct_setTransform_eq_ok_iff hframes hstart (.scale 2 3) p).mp hp).2⟩

end Instruction

end VectorScene
