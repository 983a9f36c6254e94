import Mathlib.Data.List.Forall2
import VectorScene.Proofs.Overflow
import VectorScene.Proofs.Path.Figures

/-!
# Equality of paths

Two paths are equal if their commands are of the same kinds and their coordinates are equal as numbers
(`Path.beq_iff`, `Command.beq_iff`). So what equals a path of figures is one itself
(`Path.IsFigures.of_beq`), and what equals a finite path is finite (`Path.Finite.of_beq`).
-/

namespace VectorScene

theorem Point.isFinite_of_beq {p q : Point} (h : p == q) (hq : q.isFinite) : p.isFinite := by
  obtain ⟨hx, hy⟩ := Bool.and_eq_true_iff.mp h
  obtain ⟨qx, qy⟩ := Bool.and_eq_true_iff.mp hq
  exact Bool.and_eq_true_iff.mpr ⟨Scalar.isFinite_of_beq hx qx, Scalar.isFinite_of_beq hy qy⟩

/-- Segments are equal if they are of one kind and their points are equal. -/
theorem Segment.beq_iff {s t : Segment} :
    s == t ↔ s.map (fun _ => Point.origin) = t.map (fun _ => Point.origin) ∧
      List.Forall₂ (fun p q => p == q) s.points t.points := by
  cases s <;> cases t <;> simp [BEq.beq, instBEqSegment.beq, map, points]

namespace Command

/-- Commands are equal if they are of one kind and their points are equal. -/
theorem beq_iff {c d : Command} :
    c == d ↔ c.map (fun _ => Point.origin) = d.map (fun _ => Point.origin) ∧
      List.Forall₂ (fun p q => p == q) c.points d.points := by
  cases c <;> cases d <;> simp [BEq.beq, instBEqCommand.beq, map, points]
  exact Segment.beq_iff

theorem map_map_const (c : Command) (f : Point → Point) :
    (c.map f).map (fun _ => Point.origin) = c.map fun _ => Point.origin := by
  cases c with
  | moveTo p => rfl
  | draw s => cases s <;> rfl
  | close => rfl

theorem beq_map {c : Command} {f : Point → Point} (h : ∀ q ∈ c.points, q == f q) : c == c.map f := by
  rw [beq_iff, map_map_const, points_map, List.forall₂_map_right_iff, List.forall₂_same]
  exact ⟨rfl, h⟩

/-- What equals segments is segments. -/
theorem exists_draws_of_beq {cs : List Command} {segments : List Segment}
    (h : List.Forall₂ (fun c d => c == d) cs (segments.map draw)) :
    ∃ others : List Segment, others.length = segments.length ∧ cs = others.map draw := by
  induction segments generalizing cs with
  | nil =>
    cases h
    exact ⟨[], rfl, rfl⟩
  | cons s segments ih =>
    obtain ⟨c, cs, hc, hcs, rfl⟩ := List.forall₂_cons_right_iff.mp h
    obtain ⟨others, hlength, rfl⟩ := ih hcs
    cases c with
    | draw t => exact ⟨t :: others, congrArg (· + 1) hlength, rfl⟩
    | _ => cases hc

/-- What equals two lists one after the other is two such lists. -/
theorem exists_append_of_beq {cs before after : List Command}
    (h : List.Forall₂ (fun c d => c == d) cs (before ++ after)) :
    ∃ first second, cs = first ++ second ∧ List.Forall₂ (fun c d => c == d) first before ∧
      List.Forall₂ (fun c d => c == d) second after :=
  ⟨_, _, (List.take_append_drop before.length cs).symm, List.forall₂_take_append cs before after h,
    List.forall₂_drop_append cs before after h⟩

/-- What equals a figure is a figure. -/
theorem IsFigure.of_beq {cs ds : List Command} (h : List.Forall₂ (fun c d => c == d) cs ds)
    (hds : IsFigure ds) : IsFigure cs := by
  obtain ⟨start, segments, closed, hne, rfl⟩ := hds
  obtain ⟨_, tail, rfl, hdrawn, htail⟩ := exists_append_of_beq h
  obtain ⟨c, cs, hc, hdraws, rfl⟩ := List.forall₂_cons_right_iff.mp hdrawn
  obtain ⟨others, hlength, rfl⟩ := exists_draws_of_beq hdraws
  have hothers : others ≠ [] := by
    rw [← List.length_pos_iff, hlength, List.length_pos_iff]
    exact hne
  have hmove : ∃ p, c = .moveTo p := by
    cases c with
    | moveTo p => exact ⟨p, rfl⟩
    | _ => cases hc
  have hclose : tail = if closed then [.close] else [] := by
    cases closed with
    | false => exact List.forall₂_nil_right_iff.mp htail
    | true =>
      obtain ⟨d, _, hd, hnil, rfl⟩ := List.forall₂_cons_right_iff.mp htail
      cases hnil
      cases d with
      | close => rfl
      | _ => cases hd
  obtain ⟨p, rfl⟩ := hmove
  exact ⟨p, others, closed, hothers, by rw [hclose]⟩

end Command

namespace Path

/-- Paths are equal if their commands are. -/
theorem beq_iff {p q : Path} :
    p == q ↔ List.Forall₂ (fun c d => c == d) p.commands q.commands := by
  have hcommands : (p == q) = (p.commands == q.commands) := rfl
  rw [hcommands]
  generalize p.commands = cs, q.commands = ds
  induction cs generalizing ds with
  | nil => cases ds <;> simp
  | cons c cs ih =>
    cases ds with
    | nil => simp
    | cons d ds => simp [ih]

theorem IsFigures.of_beq {p q : Path} (h : p == q) (hq : q.IsFigures) : p.IsFigures := by
  obtain ⟨figures, hcommands, hfigures⟩ := hq
  have h := beq_iff.mp h
  rw [hcommands] at h
  rw [IsFigures]
  generalize p.commands = cs at h
  clear hcommands
  induction figures generalizing cs with
  | nil =>
    cases h
    exact ⟨[], rfl, nofun⟩
  | cons ds figures ih =>
    obtain ⟨hds, hfigures⟩ := List.forall_mem_cons.mp hfigures
    obtain ⟨first, second, rfl, hfirst, hsecond⟩ := Command.exists_append_of_beq h
    obtain ⟨others, rfl, hothers⟩ := ih hfigures second hsecond
    exact ⟨first :: others, rfl, List.forall_mem_cons.mpr ⟨hds.of_beq hfirst, hothers⟩⟩

theorem Finite.of_beq {p q : Path} (h : p == q) (hq : q.Finite) : p.Finite := by
  have hpoints : List.Forall₂ (fun a b => a == b) p.points q.points :=
    List.rel_flatMap (beq_iff.mp h) fun c d hcd => (Command.beq_iff.mp hcd).2
  rw [Finite] at hq ⊢
  generalize p.points = ps, q.points = qs at hpoints hq
  induction hpoints with
  | nil => nofun
  | cons hab _ ih =>
    obtain ⟨hb, hq⟩ := List.forall_mem_cons.mp hq
    exact List.forall_mem_cons.mpr ⟨Point.isFinite_of_beq hab hb, ih hq⟩

end Path

end VectorScene
