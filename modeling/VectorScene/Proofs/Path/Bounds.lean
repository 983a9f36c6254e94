import VectorScene.Proofs.Order
import VectorScene.Proofs.Path.Vertices

/-!
# Bounds of a path

The bounds of a path are found by going through its vertices and keeping, for each side, the coordinate
that lies farthest out. Each side is so one induction (`Point.foldl_pick`): it stays beyond all vertices
seen, and at one of them. There are vertices if and only if the path starts a figure, and orphans have none
(`Path.bounds_tight`).
-/

namespace VectorScene

namespace Point

/-- Whether two points are the corners of the least box around points. -/
structure IsTightBox (low high : Point) (points : List Point) : Prop where
  encloses : ∀ q ∈ points, low.x ≤ q.x ∧ q.x ≤ high.x ∧ low.y ≤ q.y ∧ q.y ≤ high.y
  left : ∃ q ∈ points, low.x == q.x
  right : ∃ q ∈ points, high.x == q.x
  lower : ∃ q ∈ points, low.y == q.y
  upper : ∃ q ∈ points, high.y == q.y

section Pick

variable {pick : Point → Point → Point} {coordinate : Point → Float32}
  {r : Float32 → Float32 → Prop} [DecidableRel r]
  (hpick : ∀ p q, coordinate (pick p q) =
    if r (coordinate p) (coordinate q) then coordinate p else coordinate q)
  (htotal : ∀ {a b : Float32}, a.isFinite → b.isFinite → r a b ∨ r b a)
include hpick htotal

/-- Of two points, the one that is picked is one of them, and comes before both. -/
theorem pick_cases {p q : Point} (hp : (coordinate p).isFinite) (hq : (coordinate q).isFinite) :
    (coordinate (pick p q) = coordinate p ∨ coordinate (pick p q) = coordinate q) ∧
      r (coordinate (pick p q)) (coordinate p) ∧ r (coordinate (pick p q)) (coordinate q) := by
  have hself : ∀ {a : Float32}, a.isFinite → r a a := fun ha => (htotal ha ha).elim id id
  rw [hpick]
  split
  · rename_i hpq
    exact ⟨.inl rfl, hself hp, hpq⟩
  · rename_i hpq
    exact ⟨.inr rfl, (htotal hp hq).resolve_left hpq, hself hq⟩

/-- Of all points, the one that is picked is at one of them, and comes before each. -/
theorem foldl_pick (htrans : ∀ {a b c}, r a b → r b c → r a c) {p : Point} {points : List Point}
    (hfinite : ∀ q ∈ p :: points, (coordinate q).isFinite) :
    (∃ q ∈ p :: points, coordinate (points.foldl pick p) = coordinate q) ∧
      ∀ q ∈ p :: points, r (coordinate (points.foldl pick p)) (coordinate q) := by
  induction points generalizing p with
  | nil =>
    have hp := hfinite p List.mem_cons_self
    exact ⟨⟨p, List.mem_cons_self, rfl⟩, List.forall_mem_singleton.mpr ((htotal hp hp).elim id id)⟩
  | cons q points ih =>
    obtain ⟨hp, hrest⟩ := List.forall_mem_cons.mp hfinite
    obtain ⟨hq, hpoints⟩ := List.forall_mem_cons.mp hrest
    obtain ⟨hone, hbeforep, hbeforeq⟩ := pick_cases hpick htotal hp hq
    have hpicked : (coordinate (pick p q)).isFinite := by
      rcases hone with h | h <;> rw [h] <;> assumption
    -- What has been picked so far stands for the two points that it was picked from.
    obtain ⟨⟨u, hu, heq⟩, hbefore⟩ := ih (List.forall_mem_cons.mpr ⟨hpicked, hpoints⟩)
    obtain ⟨hfirst, hbefore⟩ := List.forall_mem_cons.mp hbefore
    refine ⟨?_, List.forall_mem_cons.mpr ⟨htrans hfirst hbeforep,
      List.forall_mem_cons.mpr ⟨htrans hfirst hbeforeq, hbefore⟩⟩⟩
    rw [List.foldl_cons, heq]
    rcases List.mem_cons.mp hu with rfl | hu
    · rcases hone with h | h
      · exact ⟨p, List.mem_cons_self, h⟩
      · exact ⟨q, List.mem_cons_of_mem p List.mem_cons_self, h⟩
    · exact ⟨u, List.mem_cons_of_mem p (List.mem_cons_of_mem q hu), rfl⟩

end Pick

section Extremes

variable {coordinate : Point → Float32} {p : Point} {points : List Point}

theorem foldl_lower
    (hlower : ∀ p q, coordinate (Point.lower p q) =
      if coordinate p ≤ coordinate q then coordinate p else coordinate q)
    (hfinite : ∀ q ∈ p :: points, (coordinate q).isFinite) :
    (∃ q ∈ p :: points, coordinate (points.foldl Point.lower p) = coordinate q) ∧
      ∀ q ∈ p :: points, coordinate (points.foldl Point.lower p) ≤ coordinate q :=
  foldl_pick hlower Scalar.le_or_le Scalar.le_trans hfinite

theorem foldl_upper
    (hupper : ∀ p q, coordinate (Point.upper p q) =
      if coordinate q ≤ coordinate p then coordinate p else coordinate q)
    (hfinite : ∀ q ∈ p :: points, (coordinate q).isFinite) :
    (∃ q ∈ p :: points, coordinate (points.foldl Point.upper p) = coordinate q) ∧
      ∀ q ∈ p :: points, coordinate q ≤ coordinate (points.foldl Point.upper p) :=
  foldl_pick (r := fun a b => b ≤ a) hupper (fun ha hb => Scalar.le_or_le hb ha)
    (fun hab hbc => Scalar.le_trans hbc hab) hfinite

end Extremes

theorem foldl_lower_upper (low high : Point) (points : List Point) :
    points.foldl (fun (low, high) q => (Point.lower low q, Point.upper high q)) (low, high) =
      (points.foldl Point.lower low, points.foldl Point.upper high) := by
  induction points generalizing low high with
  | nil => rfl
  | cons q points ih => exact ih (low.lower q) (high.upper q)

/-- The lowest and the highest coordinates of finite points are those of the least box around them. -/
theorem isTightBox_foldl {p : Point} {points : List Point} (h : ∀ q ∈ p :: points, q.isFinite) :
    IsTightBox (points.foldl Point.lower p) (points.foldl Point.upper p) (p :: points) := by
  have hx : ∀ q ∈ p :: points, q.x.isFinite := fun q hq => (Bool.and_eq_true_iff.mp (h q hq)).1
  have hy : ∀ q ∈ p :: points, q.y.isFinite := fun q hq => (Bool.and_eq_true_iff.mp (h q hq)).2
  have hequal : ∀ {a b : Float32}, a = b → b.isFinite → a == b := by
    rintro a _ rfl ha
    exact Scalar.beq_self ha
  obtain ⟨⟨left, hleft, left_eq⟩, hbelowx⟩ := foldl_lower (fun _ _ => rfl) hx
  obtain ⟨⟨right, hright, right_eq⟩, habovex⟩ := foldl_upper (fun _ _ => rfl) hx
  obtain ⟨⟨lowest, hlowest, lowest_eq⟩, hbelowy⟩ := foldl_lower (fun _ _ => rfl) hy
  obtain ⟨⟨highest, hhighest, highest_eq⟩, habovey⟩ := foldl_upper (fun _ _ => rfl) hy
  exact
    { encloses := fun q hq => ⟨hbelowx q hq, habovex q hq, hbelowy q hq, habovey q hq⟩
      left := ⟨left, hleft, hequal left_eq (hx left hleft)⟩
      right := ⟨right, hright, hequal right_eq (hx right hright)⟩
      lower := ⟨lowest, hlowest, hequal lowest_eq (hy lowest hlowest)⟩
      upper := ⟨highest, hhighest, hequal highest_eq (hy highest hhighest)⟩ }

end Point

namespace Path

theorem bounds_of_vertices_nil {p : Path} (h : (p.vertices curveTolerance).flatten = []) :
    p.bounds = none := by
  rw [bounds, h]

theorem bounds_of_vertices_cons {p : Path} {v : Point} {vs : List Point}
    (h : (p.vertices curveTolerance).flatten = v :: vs) :
    p.bounds = some (vs.foldl Point.lower v, vs.foldl Point.upper v) := by
  rw [bounds, h]
  exact congrArg some (Point.foldl_lower_upper v v vs)

/-- A path has no vertex exactly if it starts no figure. -/
theorem flatten_vertices_eq_nil_iff {p : Path} (tolerance : Float32) :
    (p.vertices tolerance).flatten = [] ↔ ∀ c ∈ p.commands, c.isMoveTo = false := by
  have hcount : p.subpaths = [] ↔ ∀ c ∈ p.commands, c.isMoveTo = false := by
    rw [← List.length_eq_zero_iff, length_subpaths, figureCount, List.countP_eq_zero]
    simp only [Bool.not_eq_true]
  rw [← hcount, vertices_eq]
  cases p.subpaths with
  | nil => exact iff_of_true rfl rfl
  | cons f fs => exact iff_of_false (List.cons_ne_nil _ _) (List.cons_ne_nil _ _)

/-- Only the figures of a path have vertices. -/
theorem vertices_of_inFigures_eq {p q : Path}
    (h : Command.inFigures false q.commands = Command.inFigures false p.commands) (tolerance : Float32) :
    q.vertices tolerance = p.vertices tolerance := by
  have hsubpaths : q.subpaths = p.subpaths := by
    rw [subpaths, ← Command.subpaths_inFigures false, h, Command.subpaths_inFigures]
    rfl
  rw [vertices_eq, vertices_eq, hsubpaths]

/-- A path has bounds unless it starts no figure. If all its vertices are finite, the bounds are the least
box around them. Orphans make no difference: two paths with the same figures have the same bounds. -/
theorem bounds_tight (p : Path) :
    (p.bounds = none ↔ ∀ c ∈ p.commands, c.isMoveTo = false) ∧
    ((∀ figure ∈ p.vertices curveTolerance, ∀ v ∈ figure, v.isFinite) →
      ∀ low high, p.bounds = some (low, high) →
        Point.IsTightBox low high (p.vertices curveTolerance).flatten) ∧
    (∀ q : Path, Command.inFigures false q.commands = Command.inFigures false p.commands →
      q.bounds = p.bounds) := by
  refine ⟨?_, fun hfinite low high hbounds => ?_, fun q hq => ?_⟩
  · rw [← flatten_vertices_eq_nil_iff curveTolerance]
    cases hvertices : (p.vertices curveTolerance).flatten with
    | nil => exact iff_of_true (bounds_of_vertices_nil hvertices) rfl
    | cons v vs =>
      rw [bounds_of_vertices_cons hvertices]
      exact iff_of_false nofun nofun
  · have hfinite : ∀ v ∈ (p.vertices curveTolerance).flatten, v.isFinite := fun v hv => by
      obtain ⟨figure, hfigure, hv⟩ := List.mem_flatten.mp hv
      exact hfinite figure hfigure v hv
    cases hvertices : (p.vertices curveTolerance).flatten with
    | nil =>
      rw [bounds_of_vertices_nil hvertices] at hbounds
      cases hbounds
    | cons v vs =>
      rw [bounds_of_vertices_cons hvertices] at hbounds
      rw [hvertices] at hfinite
      cases hbounds
      exact Point.isTightBox_foldl hfinite
  · rw [bounds, bounds, vertices_of_inFigures_eq hq]

theorem bounds_gappy :
    (∀ figure ∈ gappy.vertices curveTolerance, ∀ v ∈ figure, v.isFinite) ∧
    gappy.bounds = some (⟨0, 0⟩, ⟨14, 11⟩) ∧
    Point.IsTightBox ⟨0, 0⟩ ⟨14, 11⟩ (gappy.vertices curveTolerance).flatten ∧
    gappy.readBack.commands ≠ gappy.commands ∧ gappy.readBack.bounds = some (⟨0, 0⟩, ⟨14, 11⟩) := by
  have hfinite : ∀ figure ∈ gappy.vertices curveTolerance, ∀ v ∈ figure, v.isFinite := by
    decide +kernel
  have hbounds : gappy.bounds = some (⟨0, 0⟩, ⟨14, 11⟩) := by decide +kernel
  obtain ⟨-, htight, hfigures⟩ := bounds_tight gappy
  have hread : gappy.readBack.bounds = gappy.bounds := by
    apply hfigures
    rw [commands_readBack, Command.inFigures_inFigures]
  exact ⟨hfinite, hbounds, htight hfinite _ _ hbounds, by decide, hread.trans hbounds⟩

end Path

end VectorScene
