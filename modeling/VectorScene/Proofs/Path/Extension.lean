import VectorScene.Proofs.Instruction.Closing
import VectorScene.Proofs.Path.Bounds
import VectorScene.Proofs.Primitive

/-!
# Extending a path

A path that is empty or begins with a `moveTo` continues no figure of another one (`Path.StartsFigure`).
Where such a path is put behind another path, whose last figure may still be open, the subpaths are those
of both (`Path.subpaths_extend`). All that is read off the subpaths is so put together from what is read
off the two paths (`Path.extend_startsFigure`): events, vertices, and the number of figures. The bounds of
both are joined, because the first of finite numbers may be chosen in any grouping
(`Scalar.earlier_assoc`).
-/

namespace VectorScene

/-! ## Choosing among numbers -/

namespace Scalar

section Earlier

variable {r : Float32 → Float32 → Prop} [DecidableRel r] {a b c : Float32}

/-- The first number if it comes before the second one by `r`, else the second one. -/
def earlier (r : Float32 → Float32 → Prop) [DecidableRel r] (a b : Float32) : Float32 :=
  if r a b then a else b

theorem earlier_of_rel (h : r a b) : earlier r a b = a := if_pos h

theorem earlier_of_not_rel (h : ¬ r a b) : earlier r a b = b := if_neg h

theorem isFinite_earlier (ha : a.isFinite) (hb : b.isFinite) : (earlier r a b).isFinite := by
  by_cases h : r a b
  · rwa [earlier_of_rel h]
  · rwa [earlier_of_not_rel h]

theorem earlier_assoc (htrans : ∀ {a b c}, r a b → r b c → r a c) (htotal : r b c ∨ r c b) :
    earlier r (earlier r a b) c = earlier r a (earlier r b c) := by
  by_cases hab : r a b <;> by_cases hbc : r b c
  · rw [earlier_of_rel hab, earlier_of_rel hbc, earlier_of_rel hab, earlier_of_rel (htrans hab hbc)]
  · rw [earlier_of_rel hab, earlier_of_not_rel hbc]
  · rw [earlier_of_not_rel hab, earlier_of_rel hbc, earlier_of_not_rel hab]
  · -- What comes before `c` would come before `b` as well.
    have hac : ¬ r a c := fun hac => hab (htrans hac (htotal.resolve_left hbc))
    rw [earlier_of_not_rel hab, earlier_of_not_rel hbc, earlier_of_not_rel hac]

end Earlier

end Scalar

namespace Point

section Pick

variable {pick : Point → Point → Point} {r : Float32 → Float32 → Prop} [DecidableRel r]
  (hpick : ∀ p q, pick p q = ⟨Scalar.earlier r p.x q.x, Scalar.earlier r p.y q.y⟩)
  (htotal : ∀ {a b : Float32}, a.isFinite → b.isFinite → r a b ∨ r b a)
  (htrans : ∀ {a b c : Float32}, r a b → r b c → r a c)
include hpick

theorem isFinite_pick {p q : Point} (hp : p.isFinite) (hq : q.isFinite) : (pick p q).isFinite := by
  obtain ⟨px, py⟩ := Bool.and_eq_true_iff.mp hp
  obtain ⟨qx, qy⟩ := Bool.and_eq_true_iff.mp hq
  rw [hpick]
  exact Bool.and_eq_true_iff.mpr ⟨Scalar.isFinite_earlier px qx, Scalar.isFinite_earlier py qy⟩

include htotal htrans

theorem pick_assoc (p : Point) {q s : Point} (hq : q.isFinite) (hs : s.isFinite) :
    pick (pick p q) s = pick p (pick q s) := by
  obtain ⟨qx, qy⟩ := Bool.and_eq_true_iff.mp hq
  obtain ⟨sx, sy⟩ := Bool.and_eq_true_iff.mp hs
  have hx : r q.x s.x ∨ r s.x q.x := htotal qx sx
  have hy : r q.y s.y ∨ r s.y q.y := htotal qy sy
  simp only [hpick, Scalar.earlier_assoc (r := r) htrans hx, Scalar.earlier_assoc (r := r) htrans hy]

/-- What is picked from points after another one is picked from that one and the pick of the points. -/
theorem foldl_pick_pick (p : Point) {q : Point} {points : List Point}
    (h : ∀ s ∈ q :: points, s.isFinite) :
    points.foldl pick (pick p q) = pick p (points.foldl pick q) := by
  induction points generalizing q with
  | nil => rfl
  | cons s points ih =>
    obtain ⟨hq, h⟩ := List.forall_mem_cons.mp h
    obtain ⟨hs, h⟩ := List.forall_mem_cons.mp h
    rw [List.foldl_cons, List.foldl_cons, pick_assoc hpick htotal htrans p hq hs]
    exact ih (List.forall_mem_cons.mpr ⟨isFinite_pick hpick hq hs, h⟩)

theorem foldl_pick_append (p q : Point) (before after : List Point)
    (h : ∀ s ∈ q :: after, s.isFinite) :
    (before ++ q :: after).foldl pick p = pick (before.foldl pick p) (after.foldl pick q) := by
  rw [List.foldl_append, List.foldl_cons, foldl_pick_pick hpick htotal htrans _ h]

end Pick

/-- The lower and the upper corner around two boxes. -/
def joinBoxes : Point × Point → Point × Point → Point × Point
  | (low, high), (low', high') => (low.lower low', high.upper high')

theorem foldl_lower_append (p q : Point) (before after : List Point)
    (h : ∀ s ∈ q :: after, s.isFinite) :
    (before ++ q :: after).foldl lower p = (before.foldl lower p).lower (after.foldl lower q) :=
  foldl_pick_append (r := (· ≤ ·)) (fun _ _ => rfl) Scalar.le_or_le Scalar.le_trans p q before after h

theorem foldl_upper_append (p q : Point) (before after : List Point)
    (h : ∀ s ∈ q :: after, s.isFinite) :
    (before ++ q :: after).foldl upper p = (before.foldl upper p).upper (after.foldl upper q) :=
  foldl_pick_append (r := fun a b => b ≤ a) (fun _ _ => rfl) (fun ha hb => Scalar.le_or_le hb ha)
    (fun hab hbc => Scalar.le_trans hbc hab) p q before after h

/-- The corners of a least box are numbers, because they are those of points. -/
theorem IsTightBox.beq_self {low high : Point} {points : List Point} (h : IsTightBox low high points) :
    low == low ∧ high == high := by
  have hnumber : ∀ {x : Float32} {coordinate : Point → Float32},
      (∃ q ∈ points, x == coordinate q) → x == x := by
    rintro x coordinate ⟨q, -, hx⟩
    exact Scalar.beq_trans hx (Scalar.beq_symm hx)
  exact ⟨Bool.and_eq_true_iff.mpr ⟨hnumber h.left, hnumber h.lower⟩,
    Bool.and_eq_true_iff.mpr ⟨hnumber h.right, hnumber h.upper⟩⟩

end Point

/-! ## The seam between two lists of commands -/

namespace Command

/-- Whether a list of commands is empty or begins with a `moveTo`. -/
def StartsFigure (cs : List Command) : Prop := ∀ c ∈ cs.head?, c.isMoveTo

instance (cs : List Command) : Decidable (StartsFigure cs) :=
  inferInstanceAs (Decidable (∀ c ∈ cs.head?, c.isMoveTo))

variable {ds : List Command}

/-- The figure that is open where the second list begins has neither a segment nor a `close` there. -/
theorem leading_of_startsFigure (hds : StartsFigure ds) :
    leading ds = [] ∧ closesFirst ds = false := by
  cases ds with
  | nil => exact ⟨rfl, rfl⟩
  | cons d ds =>
    cases d with
    | moveTo p => exact ⟨rfl, rfl⟩
    | draw s => cases hds _ rfl
    | close => cases hds _ rfl

theorem leading_append (hds : StartsFigure ds) (cs : List Command) :
    leading (cs ++ ds) = leading cs ∧ closesFirst (cs ++ ds) = closesFirst cs := by
  induction cs with
  | nil => exact leading_of_startsFigure hds
  | cons c cs ih =>
    cases c with
    | moveTo p => exact ⟨rfl, rfl⟩
    | draw s => exact ⟨congrArg (s :: ·) ih.1, ih.2⟩
    | close => exact ⟨rfl, rfl⟩

theorem subpaths_append (hds : StartsFigure ds) (cs : List Command) :
    subpaths (cs ++ ds) = subpaths cs ++ subpaths ds := by
  induction cs with
  | nil => rfl
  | cons c cs ih =>
    cases c with
    | moveTo p =>
      obtain ⟨hleading, hcloses⟩ := leading_append hds cs
      simp only [List.cons_append, subpaths, hleading, hcloses, ih]
    | draw s => exact ih
    | close => exact ih

theorem IsFigure.startsFigure {cs : List Command} (h : IsFigure cs) (rest : List Command) :
    StartsFigure (cs ++ rest) := by
  obtain ⟨start, segments, closed, -, rfl⟩ := h
  rintro _ ⟨⟩
  rfl

end Command

namespace Path

/-- Whether the path is empty or begins with a `moveTo`, so that it continues no figure before it. -/
def StartsFigure (p : Path) : Prop := Command.StartsFigure p.commands

instance (p : Path) : Decidable p.StartsFigure :=
  inferInstanceAs (Decidable (Command.StartsFigure p.commands))

theorem IsFigures.startsFigure {p : Path} (h : p.IsFigures) : p.StartsFigure := by
  obtain ⟨figures, hcommands, hfigures⟩ := h
  rw [StartsFigure, hcommands]
  cases figures with
  | nil => nofun
  | cons cs figures => exact (hfigures cs List.mem_cons_self).startsFigure _

theorem startsFigure_moveTo (p : Point) (cs : List Command) : StartsFigure ⟨.moveTo p :: cs⟩ := by
  rintro _ ⟨⟩
  rfl

/-- A path that is made after a check begins with the `moveTo` that it is made with. -/
theorem startsFigure_of_checked {check : Except GeometryError Unit} {start : Point} {cs : List Command}
    {p : Path} (h : (do check; return ⟨.moveTo start :: cs⟩) = Except.ok p) : p.StartsFigure := by
  obtain ⟨_, -, h⟩ := bind_eq_ok_iff.mp h
  cases h
  exact startsFigure_moveTo start cs

/-- The path of a primitive begins with a `moveTo`, unless the primitive is a path itself. -/
theorem startsFigure_of_toPath {s : Primitive} {p : Path} (hs : ∀ r, s ≠ .path r)
    (h : s.toPath = .ok p) : p.StartsFigure := by
  cases s with
  | path r => exact absurd rfl (hs r)
  | arc a => exact startsFigure_of_checked h
  | line q r => exact startsFigure_of_checked h
  | cubicBezier q c₁ c₂ r => exact startsFigure_of_checked h
  | polyline points =>
    match points with
    | [] => cases h
    | [_] => cases h
    | q :: r :: points => exact startsFigure_of_checked h

theorem subpaths_extend {q : Path} (hq : q.StartsFigure) (p : Path) :
    (p.extend q).subpaths = p.subpaths ++ q.subpaths := Command.subpaths_append hq p.commands

theorem vertices_extend {q : Path} (hq : q.StartsFigure) (p : Path) (tolerance : Float32) :
    (p.extend q).vertices tolerance = p.vertices tolerance ++ q.vertices tolerance := by
  rw [vertices_eq, vertices_eq, vertices_eq, subpaths_extend hq, List.map_append]

theorem bounds_extend {p q : Path} (hq : q.StartsFigure)
    (h : ∀ v ∈ (q.vertices curveTolerance).flatten, v.isFinite) :
    (p.extend q).bounds = Option.merge Point.joinBoxes p.bounds q.bounds := by
  have hextend : ((p.extend q).vertices curveTolerance).flatten =
      (p.vertices curveTolerance).flatten ++ (q.vertices curveTolerance).flatten := by
    rw [vertices_extend hq, List.flatten_append]
  cases hvs : (p.vertices curveTolerance).flatten with
  | nil =>
    rw [hvs, List.nil_append] at hextend
    rw [bounds_of_vertices_nil hvs, bounds, bounds, hextend]
    cases (q.vertices curveTolerance).flatten <;> rfl
  | cons v vs =>
    cases hws : (q.vertices curveTolerance).flatten with
    | nil =>
      rw [hvs, hws, List.append_nil] at hextend
      rw [bounds_of_vertices_cons hextend, bounds_of_vertices_cons hvs, bounds_of_vertices_nil hws]
      rfl
    | cons w ws =>
      rw [hws] at h
      rw [hvs, hws, List.cons_append] at hextend
      rw [bounds_of_vertices_cons hextend, bounds_of_vertices_cons hvs, bounds_of_vertices_cons hws,
        Point.foldl_lower_append _ _ _ _ h, Point.foldl_upper_append _ _ _ _ h]
      rfl

theorem bounds_beq_self {p : Path} (h : ∀ v ∈ (p.vertices curveTolerance).flatten, v.isFinite) :
    p.bounds == p.bounds := by
  cases hvs : (p.vertices curveTolerance).flatten with
  | nil =>
    rw [bounds_of_vertices_nil hvs]
    rfl
  | cons v vs =>
    rw [hvs] at h
    obtain ⟨hlow, hhigh⟩ := (Point.isTightBox_foldl h).beq_self
    rw [bounds_of_vertices_cons hvs]
    exact Bool.and_eq_true_iff.mpr ⟨hlow, hhigh⟩

/-- A path that begins with a `moveTo`, or is empty, is kept apart from the path that it extends, whether
or not the last figure of that one is closed: the events are those of both, and so are the vertices and the
figures, and if all vertices are finite, the bounds are those of both, joined. What an instruction
constructs is such a path, and so is that of any primitive that is not a path itself. -/
theorem extend_startsFigure (p q : Path) :
    (∀ i, Instruction.construct i = .ok q → q.StartsFigure) ∧
    (∀ s : Primitive, (∀ r, s ≠ .path r) → s.toPath = .ok q → q.StartsFigure) ∧
    (q.StartsFigure →
      (p.extend q).events = p.events ++ q.events ∧
      (∀ tolerance,
        (p.extend q).vertices tolerance = p.vertices tolerance ++ q.vertices tolerance) ∧
      (p.extend q).figureCount = p.figureCount + q.figureCount ∧
      ((∀ figure ∈ (p.extend q).vertices curveTolerance, ∀ v ∈ figure, v.isFinite) →
        (p.extend q).bounds == Option.merge Point.joinBoxes p.bounds q.bounds)) := by
  refine ⟨fun i hi => (Instruction.isFigures_of_construct hi).startsFigure,
    fun s hs h => startsFigure_of_toPath hs h, fun hq => ⟨?_, vertices_extend hq p, ?_, fun h => ?_⟩⟩
  · rw [events_eq, events_eq, events_eq, subpaths_extend hq, List.flatMap_append]
  · rw [figureCount, extend, List.countP_append]
    rfl
  · have hfinite : ∀ v ∈ ((p.extend q).vertices curveTolerance).flatten, v.isFinite := fun v hv => by
      obtain ⟨figure, hfigure, hv⟩ := List.mem_flatten.mp hv
      exact h figure hfigure v hv
    have hright : ∀ v ∈ (q.vertices curveTolerance).flatten, v.isFinite := fun v hv => by
      apply hfinite
      rw [vertices_extend hq, List.flatten_append]
      exact List.mem_append_right _ hv
    rw [← bounds_extend hq hright]
    exact bounds_beq_self hfinite

/-- A closed figure beside the others. -/
def wedge : Path := ⟨[.moveTo ⟨20, -3⟩, .draw (.line ⟨21, -3⟩), .draw (.line ⟨21, 2⟩), .close]⟩

theorem extend_gappy_wedge :
    (Instruction.polygon [⟨20, -3⟩, ⟨21, -3⟩, ⟨21, 2⟩]).construct = .ok wedge ∧
    (Primitive.line ⟨20, -3⟩ ⟨21, 2⟩).toPath = .ok ⟨[.moveTo ⟨20, -3⟩, .draw (.line ⟨21, 2⟩)]⟩ ∧
    Path.StartsFigure ⟨[.moveTo ⟨20, -3⟩, .draw (.line ⟨21, 2⟩)]⟩ ∧
    wedge.StartsFigure ∧
    (gappy.extend wedge).events = gappy.events ++ wedge.events ∧
    (gappy.extend wedge).vertices curveTolerance =
      gappy.vertices curveTolerance ++ wedge.vertices curveTolerance ∧
    (gappy.extend wedge).figureCount = 4 ∧
    (∀ figure ∈ (gappy.extend wedge).vertices curveTolerance, ∀ v ∈ figure, v.isFinite) ∧
    (gappy.extend wedge).bounds == some (⟨0, -3⟩, ⟨21, 11⟩) := by
  have hconstruct : (Instruction.polygon [⟨20, -3⟩, ⟨21, -3⟩, ⟨21, 2⟩]).construct = .ok wedge := by
    decide +kernel
  have hline : (Primitive.line ⟨20, -3⟩ ⟨21, 2⟩).toPath =
      .ok ⟨[.moveTo ⟨20, -3⟩, .draw (.line ⟨21, 2⟩)]⟩ := by decide +kernel
  have hshape : ∀ r, Primitive.line ⟨20, -3⟩ ⟨21, 2⟩ ≠ .path r := fun r h => nomatch h
  have hfinite : ∀ figure ∈ (gappy.extend wedge).vertices curveTolerance,
      ∀ v ∈ figure, v.isFinite := by decide +kernel
  have hjoined : Option.merge Point.joinBoxes gappy.bounds wedge.bounds =
      some (⟨0, -3⟩, ⟨21, 11⟩) := by decide +kernel
  obtain ⟨hconstructed, -, hextend⟩ := extend_startsFigure gappy wedge
  obtain ⟨-, hdrawn, -⟩ := extend_startsFigure gappy ⟨[.moveTo ⟨20, -3⟩, .draw (.line ⟨21, 2⟩)]⟩
  have hwedge := hconstructed _ hconstruct
  obtain ⟨hevents, hvertices, hcount, hbounds⟩ := hextend hwedge
  refine ⟨hconstruct, hline, hdrawn _ hshape hline, hwedge, hevents, hvertices curveTolerance, hcount,
    hfinite, ?_⟩
  rw [← hjoined]
  exact hbounds hfinite

end Path

end VectorScene
