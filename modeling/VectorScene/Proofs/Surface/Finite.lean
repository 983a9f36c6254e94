import VectorScene.Proofs.Overflow
import VectorScene.Proofs.Scene.Place
import VectorScene.Proofs.Surface.Drawing

/-!
# Finite paths only

Each item of a scene is checked after it was transformed, and `Item.render_of_outline` says that this
check is all there is: the outline may come from a primitive or from a text provider, finite or not, and
the transforms may hold any numbers. What overflows on the way to the check is still not finite there
(`Path.finite_of_transformed`, `Affine.isFinite_of_compose`), so one check of the result is enough for
all that has led to it (`Scene.Context.Overflows`).

A drawing flattens before it paints. So no path that is handed to a surface has a point that is not
finite, and where the flattening fails no path is handed to it at all (`draw_finite`).
-/

namespace VectorScene

variable {σ : Type}

/-! ## Items -/

namespace Item

variable {text : TextProvider σ} {i : Item} {m : Affine} {state next : σ}

/-- An item that has an outline is rendered if the outline is finite under the transform. -/
theorem render_of_outline {outline : Path} (h : i.outline text state = .ok outline next) :
    i.render text m state =
      if (outline.transformed m).Finite then
        .ok { tool := i.tool, path := outline.transformed m } next
      else .error (.geometry (.nonFinite .transformed)) next := by
  rw [render, bind_of_ok h]
  simp only [EvalM.geometry, Path.check_eq]
  split <;> rfl

theorem finite_of_render {d : Drawable} (h : i.render text m state = .ok d next) : d.path.Finite := by
  obtain ⟨outline, houtline, rfl⟩ := exists_of_render h
  rw [render_of_outline houtline] at h
  split at h
  · assumption
  · cases h

end Item

/-! ## Places -/

namespace Scene.Context

/-- The transforms above a place, each with the composition that it is the last part of. -/
def stages : Context → List Affine
  | top => []
  | left c _ _ => c.stages
  | right c _ _ => c.stages
  | under c _ m => c.stages ++ [m, Affine.compose c.transform m]

/-- No overflow on the way to a place is lost in the transform there. -/
theorem isFinite_of_mem_stages {c : Context} (h : c.transform.isFinite) :
    ∀ m ∈ c.stages, m.isFinite := by
  induction c with
  | top => nofun
  | left c _ _ ih => exact ih h
  | right c _ _ ih => exact ih h
  | under c _ m ih =>
    obtain ⟨houter, hm⟩ := Affine.isFinite_of_compose h
    refine List.forall_mem_append.mpr ⟨ih houter, ?_⟩
    exact List.forall_mem_cons.mpr ⟨hm, List.forall_mem_singleton.mpr h⟩

/-- From an outline to its image in the place, some number is not finite: in the outline, in a transform
above the place or a composition of these, or in the image. Where there is no point to be mapped, the
transforms do not matter. -/
def Overflows (c : Context) (outline : Path) : Prop :=
  ¬ outline.Finite ∨ (outline.points ≠ [] ∧ ∃ m ∈ c.stages, ¬ m.isFinite) ∨
    ¬ (outline.transformed c.transform).Finite

theorem Overflows.not_finite {c : Context} {outline : Path} (h : c.Overflows outline) :
    ¬ (outline.transformed c.transform).Finite := by
  intro hfinite
  obtain ⟨houtline, htransform⟩ := Path.finite_of_transformed hfinite
  rcases h with h | ⟨hpoints, m, hm, h⟩ | h
  · exact h houtline
  · exact h (isFinite_of_mem_stages (htransform hpoints) m hm)
  · exact h hfinite

end Scene.Context

namespace Scene

variable {text : TextProvider σ} {state : σ}

theorem finite_of_flatten {s : Scene} {ds : List Drawable}
    (h : (s.flatten text state).result = .ok ds) : ∀ d ∈ ds, d.path.Finite := by
  intro d hd
  obtain ⟨p, -, entered, left, hp⟩ := exists_step_of_mem_mapM (flatten_eq_ok_iff.mp h) d hd
  exact Item.finite_of_render hp

/-- An overflow at a place that is reached is the failure of the flattening. -/
theorem flatten_of_overflows {c : Context} {stamp : Nat} {i : Item} {before : List Drawable}
    {entered next : σ} {outline : Path}
    (hbefore : c.placedBefore.mapM (Placed.render text) state = .ok before entered)
    (houtline : i.outline text entered = .ok outline next) (h : c.Overflows outline) :
    ((c.fill (item stamp i)).flatten text state).result =
      .error (.geometry (.nonFinite .transformed)) := by
  have hitem : Placed.render text ⟨i, c.transform⟩ entered =
      .error (.geometry (.nonFinite .transformed)) next := by
    show i.render text c.transform entered = _
    rw [Item.render_of_outline houtline, if_neg h.not_finite]
  have hplaced : (c.fill (item stamp i)).placed Affine.identity =
      c.placedBefore ++ ⟨i, c.transform⟩ :: c.placedAfter := by
    rw [c.placed_fill, placed, List.append_assoc, List.singleton_append]
  have houtcome : ((c.fill (item stamp i)).flatten text state).outcome =
      outcomeAt next (.error (.geometry (.nonFinite .transformed))) := by
    rw [outcome_flatten, render_eq_mapM, hplaced, mapM_append_of_error hbefore hitem]
    rfl
  exact (outcomeAt_inj houtcome).2

/-- Where the flattening succeeds, each place is reached, has an outline there and does not overflow. -/
theorem exists_not_overflows {c : Context} {stamp : Nat} {i : Item} {ds : List Drawable}
    (h : ((c.fill (item stamp i)).flatten text state).result = .ok ds) :
    ∃ before entered outline next, c.placedBefore.mapM (Placed.render text) state = .ok before entered ∧
      i.outline text entered = .ok outline next ∧ ¬ c.Overflows outline := by
  obtain ⟨before, block, after, entered, left, -, hbefore, hblock, -⟩ := exists_block h
  obtain ⟨d, next, hd, -⟩ := exists_of_bind_ok hblock
  obtain ⟨outline, houtline, -⟩ := Item.exists_of_render hd
  refine ⟨before, entered, outline, next, hbefore, houtline, fun hoverflows => ?_⟩
  cases h.symm.trans (flatten_of_overflows hbefore houtline hoverflows)

end Scene

/-! ## Drawing -/

/-- The path that is handed to a surface. -/
def Effect.painted? : Effect → Option Path
  | ask _ => none
  | stroke _ _ path => some path
  | fill _ path => some path

theorem Drawable.painted?_effect (d : Drawable) : d.effect.painted? = some d.path := by
  unfold effect
  split <;> rfl

theorem Surface.Paints.subset {surface : Surface σ} {ds offered : List Drawable} {state final : σ}
    {outcome : Except String Unit} (h : surface.Paints ds state offered outcome final) :
    offered ⊆ ds := by
  cases h with
  | all h => exact List.Subset.refl _
  | @refused before after d middle _ report hds hbefore hd =>
    rw [hds, List.append_cons before d after]
    exact List.subset_append_left _ _

/-- The paths that a recorded drawing hands to the surface are those of drawables that the flattening
has returned. -/
theorem exists_of_painted (s : Scene) (text : TextProvider σ) (surface : Surface σ) (state : σ)
    {effect : Effect} {p : Path}
    (heffect : effect ∈ (draw s text.recorded surface.recorded (state, [])).state.2)
    (hp : effect.painted? = some p) :
    ∃ ds, (s.flatten text state).result = .ok ds ∧ ∃ d ∈ ds, d.path = p := by
  obtain ⟨requests, hresult, hstate⟩ := exists_flatten_recorded s text state
  have hrequests : effect ∉ requests.map Effect.ask := by
    intro hmem
    obtain ⟨request, -, rfl⟩ := List.mem_map.mp hmem
    cases hp
  cases h : (s.flatten text state).result with
  | error e =>
    obtain ⟨-, hlog⟩ := draw_of_error surface.recorded (hresult.trans h)
    rw [hlog, hstate] at heffect
    exact absurd heffect hrequests
  | ok ds =>
    obtain ⟨offered, outcome, final, hpaints⟩ := surface.exists_paints ds (s.flatten text state).state
    obtain ⟨-, hlog⟩ := draw_of_ok (hresult.trans h)
      (hstate ▸ hpaints.recorded (requests.map Effect.ask))
    rw [hlog] at heffect
    obtain ⟨d, hd, rfl⟩ := List.mem_map.mp ((List.mem_append.mp heffect).resolve_left hrequests)
    rw [Drawable.painted?_effect] at hp
    exact ⟨ds, rfl, d, hpaints.subset hd, Option.some.inj hp⟩

/-- Whatever the transforms hold and the text provider answers, all points of the drawables of a scene
are finite, and so are those of the paths that a drawing hands to the surface. If the flattening fails,
the drawing fails with it and hands no path to the surface. An overflow at a place, in the outline, in a
chain of transforms or in a point that is mapped, is such a failure where the place is reached, and each
place is reached unless the flattening has failed before. -/
theorem draw_finite (s : Scene) (text : TextProvider σ) (surface : Surface σ) (state : σ) :
    let flattening := s.flatten text state
    let drawing := draw s text surface state
    let log := (draw s text.recorded surface.recorded (state, [])).state.2
    (∀ ds, flattening.result = .ok ds → ∀ d ∈ ds, d.path.Finite) ∧
    (∀ effect ∈ log, ∀ p, effect.painted? = some p → p.Finite) ∧
    (∀ e, flattening.result = .error e →
      drawing.result = .error (.eval e) ∧ drawing.state = flattening.state ∧
        ∀ effect ∈ log, effect.painted? = none) ∧
    ∀ (c : Scene.Context) (stamp : Nat) (i : Item), c.fill (.item stamp i) = s →
      (∀ before entered outline next,
        c.placedBefore.mapM (Placed.render text) state = .ok before entered →
        i.outline text entered = .ok outline next → c.Overflows outline →
        flattening.result = .error (.geometry (.nonFinite .transformed))) ∧
      ∀ ds, flattening.result = .ok ds → ∃ before entered outline next,
        c.placedBefore.mapM (Placed.render text) state = .ok before entered ∧
        i.outline text entered = .ok outline next ∧ ¬ c.Overflows outline := by
  intro flattening drawing log
  refine ⟨fun ds h => Scene.finite_of_flatten h, ?_, ?_, ?_⟩
  · intro effect heffect p hp
    obtain ⟨ds, hds, d, hd, rfl⟩ := exists_of_painted s text surface state heffect hp
    exact Scene.finite_of_flatten hds d hd
  · intro e he
    obtain ⟨hresult, hstate⟩ := draw_of_error surface he
    refine ⟨hresult, hstate, fun effect heffect => ?_⟩
    cases hp : effect.painted? with
    | none => rfl
    | some p =>
      obtain ⟨ds, hds, -⟩ := exists_of_painted s text surface state heffect hp
      cases hds.symm.trans he
  · rintro c stamp i rfl
    refine ⟨fun before entered outline next hbefore houtline h => ?_, fun ds h => ?_⟩
    · exact Scene.flatten_of_overflows hbefore houtline h
    · exact Scene.exists_not_overflows h

namespace Scene

/-- The transform below which numbers overflow if it is applied twice. -/
def farGrowth : Affine := Affine.scale 1e30 1e30

/-- A bar, and another one beside it that is enlarged twice. -/
def farBars : Scene := transformed 3 farGrowth (union 2 bar (transformed 1 farGrowth bar))

theorem draw_farBars (surface : Surface Unit) :
    let unavailable : TextProvider Unit := .unavailable
    let log := (draw farBars (TextProvider.recorded unavailable) surface.recorded ((), [])).state.2
    ((transformed 3 farGrowth bar).flatten unavailable ()).result.isOk ∧
      (draw farBars unavailable surface ()).result =
        .error (.eval (.geometry (.nonFinite .transformed))) ∧
      ∀ effect ∈ log, effect.painted? = none := by
  intro unavailable log
  have hok : ((transformed 3 farGrowth bar).flatten unavailable ()).result.isOk := by decide +kernel
  obtain ⟨-, -, herror, hoverflow⟩ := draw_finite farBars unavailable surface ()
  -- The second bar is reached, since the first one alone can be flattened.
  have hfailure : (farBars.flatten unavailable ()).result =
      .error (.geometry (.nonFinite .transformed)) := by
    obtain ⟨ds, h⟩ := exists_of_isOk hok
    have hreached := flatten_eq_ok_iff.mp h
    have hplace := hoverflow (.under (.right (.under .top 3 farGrowth) 2 bar) 1 farGrowth) 0 _ rfl
    refine hplace.1 ds () ⟨[.moveTo Point.origin, .draw (.line ⟨1, 0⟩)]⟩ () hreached rfl ?_
    exact .inr (.inl ⟨nofun, by decide +kernel⟩)
  obtain ⟨hresult, -, hlog⟩ := herror _ hfailure
  exact ⟨hok, hresult, hlog⟩

end Scene

end VectorScene
