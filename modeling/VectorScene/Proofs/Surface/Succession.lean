import VectorScene.Proofs.Scene.Union
import VectorScene.Proofs.Surface.Drawing

/-!
# Drawing one scene after the other

A union is drawn as its scenes are drawn one after the other, as long as both of them can be flattened.
`paint_append_of_ok` and `paint_append_of_error` say so of painting: the second list of drawables is
offered from the state in which the first one leaves the surface, and not at all if a drawable of the
first one is refused.

What differs is when a failure to flatten is found. A union is flattened as a whole before anything is
painted, so the surface stays as it is if one of the two scenes fails; drawn on its own, the first scene
is painted before the second one is looked at (`draw_join`).
-/

namespace VectorScene

variable {σ : Type}

/-! ## Painting -/

namespace Surface.Paints

variable {surface : Surface σ} {ds ds' offered : List Drawable} {state middle final : σ}

/-- Drawables are painted after others that were all painted. -/
theorem append {outcome : Except String Unit} (h : forM ds surface.apply state = .ok () middle)
    (h' : surface.Paints ds' middle offered outcome final) :
    surface.Paints (ds ++ ds') state (ds ++ offered) outcome final := by
  cases h' with
  | all h' => exact .all ((forM_append_of_ok ds' h).trans h')
  | @refused before after d last _ report hds hbefore hd =>
    have hfirst : forM (ds ++ before) surface.apply state = .ok () last :=
      (forM_append_of_ok before h).trans hbefore
    rw [hds, ← List.append_assoc, ← List.append_assoc]
    exact .refused rfl hfirst hd

/-- Drawables after one that is refused are not offered. -/
theorem append_refused {report : String}
    (h : surface.Paints ds state offered (.error report) final) (ds' : List Drawable) :
    surface.Paints (ds ++ ds') state offered (.error report) final := by
  cases h with
  | refused hds hbefore hd =>
    exact .refused (by rw [hds, List.append_assoc, List.cons_append]) hbefore hd

end Surface.Paints

variable {surface : Surface σ} {ds : List Drawable} {state : σ}

/-- If a list of drawables is painted to its end, what follows it is painted from there. -/
theorem paint_append_of_ok (h : (paint surface ds state).result = .ok ()) (ds' : List Drawable) :
    let next := paint surface ds' (paint surface ds state).state
    (paint surface (ds ++ ds') state).result = next.result ∧
      (paint surface (ds ++ ds') state).state = next.state := by
  intro next
  obtain ⟨offered, outcome, middle, hpaints⟩ := surface.exists_paints ds state
  obtain ⟨hresult, hmiddle⟩ := hpaints.paint
  cases hpaints with
  | all hall =>
    obtain ⟨offered', outcome', final, hnext⟩ :=
      surface.exists_paints ds' (paint surface ds state).state
    obtain ⟨hnextResult, hfinal⟩ := hnext.paint
    obtain ⟨hwhole, hlast⟩ := (Surface.Paints.append hall (hmiddle ▸ hnext)).paint
    exact ⟨hwhole.trans hnextResult.symm, hlast.trans hfinal.symm⟩
  | refused hds hbefore hd =>
    rw [h] at hresult
    cases hresult

/-- If a drawable of a list is refused, what follows the list is not painted. -/
theorem paint_append_of_error {e : DrawError} (h : (paint surface ds state).result = .error e)
    (ds' : List Drawable) :
    (paint surface (ds ++ ds') state).result = .error e ∧
      (paint surface (ds ++ ds') state).state = (paint surface ds state).state := by
  obtain ⟨offered, outcome, middle, hpaints⟩ := surface.exists_paints ds state
  obtain ⟨hresult, hmiddle⟩ := hpaints.paint
  cases hpaints with
  | all hall =>
    rw [h] at hresult
    cases hresult
  | refused hds hbefore hd =>
    obtain ⟨hwhole, hlast⟩ := (Surface.Paints.append_refused (.refused hds hbefore hd) ds').paint
    exact ⟨hwhole.trans (hresult.symm.trans h), hlast.trans hmiddle.symm⟩

/-! ## Flattening -/

namespace Scene

variable (answer : TextRequest → Except String Path)

/-- A provider that answers by a function leaves every state as it is, and none of them matters. -/
theorem flatten_ofFunction (s : Scene) (state : σ) :
    (s.flatten (.ofFunction answer) state).result = s.flattenBy answer ∧
      (s.flatten (.ofFunction answer) state).state = state := by
  have hkept : ∀ requests : List TextRequest, requests.foldl (fun state _ => state) state = state := by
    intro requests
    induction requests with
    | nil => rfl
    | cons request requests ih => exact ih
  have houtcome : (s.flatten (.ofFunction answer) state).outcome =
      outcomeAt state (s.drawablesBy answer Affine.identity) := by
    rw [TextProvider.ofFunction_eq_noting, outcome_flatten_noting, hkept]
  obtain ⟨hstate, hresult⟩ := outcomeAt_inj houtcome
  exact ⟨hresult.trans (s.flattenBy_eq_drawablesBy answer).symm, hstate⟩

theorem flattenBy_join (a b : Scene) (stamp : Nat) :
    ((join a b).run stamp).1.flattenBy answer = do
      return (← a.flattenBy answer) ++ (← b.flattenBy answer) := by
  simp only [flattenBy_eq_drawablesBy, drawablesBy_eq_mapM, placed_join, List.mapM_append]

/-! ## Drawing -/

variable {answer} {s : Scene}

theorem draw_of_flattenBy_ok {ds : List Drawable} (h : s.flattenBy answer = .ok ds)
    (surface : Surface σ) (state : σ) :
    (draw s (.ofFunction answer) surface state).result = (paint surface ds state).result ∧
      (draw s (.ofFunction answer) surface state).state = (paint surface ds state).state := by
  obtain ⟨hresult, hstate⟩ := s.flatten_ofFunction answer state
  obtain ⟨offered, outcome, final, hpaints⟩ := surface.exists_paints ds state
  obtain ⟨hdrawing, hfinal⟩ := draw_of_ok (hresult.trans h) (hstate.symm ▸ hpaints)
  obtain ⟨hpainting, hlast⟩ := hpaints.paint
  exact ⟨hdrawing.trans hpainting.symm, hfinal.trans hlast.symm⟩

theorem draw_of_flattenBy_error {e : EvalError} (h : s.flattenBy answer = .error e)
    (surface : Surface σ) (state : σ) :
    (draw s (.ofFunction answer) surface state).result = .error (.eval e) ∧
      (draw s (.ofFunction answer) surface state).state = state := by
  obtain ⟨hresult, hstate⟩ := s.flatten_ofFunction answer state
  obtain ⟨hdrawing, hfinal⟩ := draw_of_error surface (hresult.trans h)
  exact ⟨hdrawing, hfinal.trans hstate⟩

end Scene

open Scene in
/-- With a provider that answers by a function, drawing a union of two scenes that can be flattened is
drawing the first and then, if that has succeeded, the second. If the first can be flattened and the
second cannot, the union leaves the surface as it is, where drawing one after the other would have
painted the first. If already the first cannot be flattened, nothing is painted in either way. -/
theorem draw_join (answer : TextRequest → Except String Path) (surface : Surface σ) (a b : Scene)
    (stamp : Nat) (state : σ) :
    let text : TextProvider σ := .ofFunction answer
    let whole := draw ((join a b).run stamp).1 text surface state
    let first := draw a text surface state
    let second := draw b text surface first.state
    match a.flattenBy answer, b.flattenBy answer with
    | .ok _, .ok _ =>
      match first.result with
      | .ok () => whole.result = second.result ∧ whole.state = second.state
      | .error e => whole.result = .error e ∧ whole.state = first.state
    | .ok _, .error e =>
      whole.result = .error (.eval e) ∧ whole.state = state ∧
        second.result = .error (.eval e) ∧ second.state = first.state
    | .error e, _ =>
      whole.result = .error (.eval e) ∧ whole.state = state ∧
        first.result = .error (.eval e) ∧ first.state = state := by
  intro text whole first second
  have hjoin := flattenBy_join answer a b stamp
  cases ha : a.flattenBy answer with
  | error e =>
    rw [ha] at hjoin
    obtain ⟨hwhole, hstate⟩ := draw_of_flattenBy_error hjoin surface state
    exact ⟨hwhole, hstate, draw_of_flattenBy_error ha surface state⟩
  | ok ds =>
    cases hb : b.flattenBy answer with
    | error e =>
      rw [ha, hb] at hjoin
      obtain ⟨hwhole, hstate⟩ := draw_of_flattenBy_error hjoin surface state
      exact ⟨hwhole, hstate, draw_of_flattenBy_error hb surface first.state⟩
    | ok ds' =>
      rw [ha, hb] at hjoin
      obtain ⟨hwhole, hwholeState⟩ := draw_of_flattenBy_ok hjoin surface state
      obtain ⟨hfirst, hfirstState⟩ := draw_of_flattenBy_ok ha surface state
      obtain ⟨hsecond, hsecondState⟩ := draw_of_flattenBy_ok hb surface first.state
      have hmiddle : first.state = (paint surface ds state).state := hfirstState
      cases hresult : first.result with
      | ok _ =>
        obtain ⟨hjoined, hlast⟩ := paint_append_of_ok (hfirst.symm.trans hresult) ds'
        rw [← hmiddle] at hjoined hlast
        exact ⟨hwhole.trans (hjoined.trans hsecond.symm),
          hwholeState.trans (hlast.trans hsecondState.symm)⟩
      | error e =>
        obtain ⟨hjoined, hlast⟩ := paint_append_of_error (hfirst.symm.trans hresult) ds'
        exact ⟨hwhole.trans hjoined, hwholeState.trans (hlast.trans hmiddle.symm)⟩

end VectorScene
