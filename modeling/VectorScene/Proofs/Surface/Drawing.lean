import VectorScene.Proofs.Surface.Beside

/-!
# What a drawing does, in order

A drawing asks a text provider for outlines and paints on a surface. Each request and each call of
the surface is an `Effect`, and a provider and a surface can be made to record their effects in one
log. `draw_recorded` says what the log of a drawing holds: the requests of the flattening, and after
them the calls for the drawables that are offered to the surface.

`Surface.Paints` says which drawables are offered and how the painting ends, without the loop of
`paintAll`: all of them, each with success, or those up to the first one that the surface refuses. Each
list of drawables is painted so from each state (`Surface.exists_paints`), and `paint` does it
(`Surface.Paints.paint`).
-/

namespace VectorScene

variable {α ε σ τ : Type}

/-! ## Painting -/

/-- Of the drawables `ds`, painted from a state, some are offered to the surface, in order; the last
of these may be refused with a message. The state at the end is that of the surface after them. -/
inductive Surface.Paints (surface : Surface σ) (ds : List Drawable) (state : σ) :
    List Drawable → Except String Unit → σ → Prop
  | all {final : σ} (h : forM ds surface.apply state = .ok () final) :
    Paints surface ds state ds (.ok ()) final
  | refused {before after : List Drawable} {d : Drawable} {middle final : σ} {report : String}
    (hds : ds = before ++ d :: after) (hbefore : forM before surface.apply state = .ok () middle)
    (hd : surface.apply d middle = .error report final) :
    Paints surface ds state (before ++ [d]) (.error report) final

theorem paintAll_append {surface : Surface σ} {before : List Drawable} {state middle : σ}
    (h : forM before surface.apply state = .ok () middle) (after : List Drawable) (painted : Nat) :
    paintAll surface (before ++ after) painted state =
      paintAll surface after (painted + before.length) middle := by
  induction before generalizing painted state with
  | nil => cases h; rfl
  | cons d before ih =>
    obtain ⟨next, hd, h⟩ := exists_of_forM_cons h
    rw [List.cons_append, paintAll, hd]
    simp only [ih h, List.length_cons, Nat.add_right_comm, Nat.add_assoc]

namespace Surface

/-- Every list of drawables is painted to its end or to the first refusal. -/
theorem exists_paints (surface : Surface σ) (ds : List Drawable) (state : σ) :
    ∃ offered outcome final, surface.Paints ds state offered outcome final := by
  obtain ⟨final, h⟩ | ⟨before, d, after, middle, report, final, hds, hbefore, hd⟩ :=
    forM_cases surface.apply ds state
  · exact ⟨ds, .ok (), final, .all h⟩
  · exact ⟨before ++ [d], .error report, final, .refused hds hbefore hd⟩

namespace Paints

variable {surface : Surface σ} {ds offered : List Drawable} {state final : σ}
  {outcome : Except String Unit}

theorem paint (h : surface.Paints ds state offered outcome final) :
    (VectorScene.paint surface ds state).result = outcome.mapError .surface ∧
      (VectorScene.paint surface ds state).state = final := by
  cases h with
  | all h =>
    have hpaint : paintAll surface (ds ++ []) 0 state =
        { painted := 0 + ds.length, failure := none, state := final } := by
      rw [paintAll_append h, paintAll]
    rw [VectorScene.paint, ← List.append_nil ds, hpaint]
    exact ⟨rfl, rfl⟩
  | @refused before after d middle _ report hds hbefore hd =>
    have hpaint : paintAll surface (before ++ d :: after) 0 state =
        { painted := 0 + before.length, failure := some report, state := final } := by
      rw [paintAll_append hbefore, paintAll, hd]
    rw [VectorScene.paint, hds, hpaint]
    exact ⟨rfl, rfl⟩

/-- A painting succeeds if every call does. -/
theorem ok_iff (h : surface.Paints ds state offered outcome final) :
    outcome = .ok () ↔ ∃ last, forM ds surface.apply state = .ok () last := by
  cases h with
  | all h => exact ⟨fun _ => ⟨final, h⟩, fun _ => rfl⟩
  | @refused before after d middle _ report hds hbefore hd =>
    have hfail : forM ds surface.apply state = .error report final := by
      rw [hds, forM_append_of_ok _ hbefore, forM_cons_of_error after hd]
    refine ⟨nofun, fun ⟨last, h⟩ => ?_⟩
    rw [hfail] at h
    cases h

/-- Another surface is painted on in the same way if `view` gives its state from that of the first one
and the drawables that were offered. -/
theorem along {ρ : Type} (other : Surface ρ) (view : σ → List Drawable → ρ)
    (hview : ∀ d s s' result past, surface.apply d s = outcomeAt s' result →
      other.apply d (view s past) = outcomeAt (view s' (past ++ [d])) result)
    (h : surface.Paints ds state offered outcome final) :
    other.Paints ds (view state []) offered outcome (view final offered) := by
  -- All calls succeed, after those for the drawables that are past.
  have hforM : ∀ (ds past : List Drawable) (s s' : σ), forM ds surface.apply s = .ok () s' →
      forM ds other.apply (view s past) = .ok () (view s' (past ++ ds)) := by
    intro ds
    induction ds with
    | nil => intro past s s' h; cases h; rw [List.append_nil]; rfl
    | cons d ds ih =>
      intro past s s' h
      obtain ⟨next, hd, h⟩ := exists_of_forM_cons h
      have hother : other.apply d (view s past) = .ok () (view next (past ++ [d])) :=
        hview d s next (.ok ()) past hd
      rw [forM_cons_of_ok ds hother, ih _ _ _ h, List.append_assoc, List.singleton_append]
  cases h with
  | all h => exact .all (hforM ds [] state final h)
  | @refused before after d middle _ report hds hbefore hd =>
    exact .refused hds (hforM before [] state middle hbefore)
      (hview d middle final (.error report) before hd)

end Paints

end Surface

/-! ## Effects -/

/-- What a drawing does to what lies outside of it. -/
inductive Effect where
  | ask (request : TextRequest)
  | stroke (color : Color) (width : Float32) (path : Path)
  | fill (color : Color) (path : Path)

/-- The call of a surface that paints a drawable. -/
def Drawable.effect (d : Drawable) : Effect :=
  match d.tool with
  | .stroke color width => .stroke color width d.path
  | .fill color => .fill color d.path

/-- Records an effect in a log, and then does what has it. -/
def recording (effect : Effect) (x : EStateM ε σ α) : EStateM ε (σ × List Effect) α :=
  fun (state, log) => onFirst x (state, log ++ [effect])

/-- The provider that also records each request. -/
def TextProvider.recorded (text : TextProvider σ) : TextProvider (σ × List Effect) :=
  ⟨fun request => recording (.ask request) (text.outlines request)⟩

/-- The surface that also records each call. -/
def Surface.recorded (surface : Surface σ) : Surface (σ × List Effect) where
  stroke color width path := recording (.stroke color width path) (surface.stroke color width path)
  fill color path := recording (.fill color path) (surface.fill color path)

theorem recording_apply (effect : Effect) {x : EStateM ε σ α} {s s' : σ} {result : Except ε α}
    (h : x s = outcomeAt s' result) (log : List Effect) :
    recording effect x (s, log) = outcomeAt (s', log ++ [effect]) result :=
  onFirst_apply h (log ++ [effect])

namespace Surface

variable {surface : Surface σ} {d : Drawable} {s s' : σ} {result : Except String Unit}

theorem apply_recorded (h : surface.apply d s = outcomeAt s' result) (log : List Effect) :
    surface.recorded.apply d (s, log) = outcomeAt (s', log ++ [d.effect]) result := by
  unfold apply at h ⊢
  unfold Drawable.effect
  cases ht : d.tool <;> rw [ht] at h <;> exact recording_apply _ h log

theorem apply_second (h : surface.apply d s = outcomeAt s' result) (t : τ) :
    surface.second.apply d (t, s) = outcomeAt (t, s') result := by
  unfold apply at h ⊢
  cases ht : d.tool <;> rw [ht] at h <;> exact onSecond_apply h t

variable {ds offered : List Drawable} {state final : σ} {outcome : Except String Unit}

/-- What is painted on a surface that records its calls: the calls for what is offered are recorded,
in order. -/
theorem Paints.recorded (h : surface.Paints ds state offered outcome final) (log : List Effect) :
    surface.recorded.Paints ds (state, log) offered outcome
      (final, log ++ offered.map Drawable.effect) := by
  have hlog := h.along surface.recorded (fun s past => (s, log ++ past.map Drawable.effect))
    fun d s s' result past hd => by
      rw [apply_recorded hd, List.map_append, List.append_assoc, List.map_singleton]
  rwa [List.map_nil, List.append_nil] at hlog

/-- A surface is painted on in the same way beside another state, which stays as it is. -/
theorem Paints.second (h : surface.Paints ds state offered outcome final) (t : τ) :
    surface.second.Paints ds (t, state) offered outcome (t, final) :=
  h.along surface.second (fun s _ => (t, s)) fun _ _ _ _ _ hd => apply_second hd t

end Surface

/-- A provider that records its requests answers as before, and adds requests to the log. -/
theorem exists_flatten_recorded (s : Scene) (text : TextProvider σ) (state : σ) :
    ∃ requests : List TextRequest,
      (s.flatten text.recorded (state, [])).result = (s.flatten text state).result ∧
      (s.flatten text.recorded (state, [])).state =
        ((s.flatten text state).state, requests.map .ask) := by
  obtain ⟨log, ⟨requests, hlog⟩, hresult, hstate⟩ := Beside.flatten text.recorded text
    (R := fun log log' => ∃ requests : List TextRequest, log' = log ++ requests.map Effect.ask)
    (fun log => ⟨[], by simp⟩)
    (fun _ _ _ ⟨first, hfirst⟩ ⟨next, hnext⟩ => ⟨first ++ next, by simp [hfirst, hnext]⟩)
    (fun request _ log => ⟨log ++ [.ask request], ⟨[request], rfl⟩, rfl⟩) s state []
  refine ⟨requests, hresult, ?_⟩
  rw [hstate, hlog, List.nil_append]

/-! ## Drawing -/

theorem draw_of_error {s : Scene} {text : TextProvider σ} {state : σ} {e : EvalError}
    (surface : Surface σ) (h : (s.flatten text state).result = .error e) :
    (draw s text surface state).result = .error (.eval e) ∧
      (draw s text surface state).state = (s.flatten text state).state := by
  have hpainting : (draw s text surface state).painting = .error e := by
    simp only [draw, h, Except.map]
  simp only [Drawing.result, Drawing.state, hpainting, true_and]
  rfl

theorem draw_of_ok {s : Scene} {text : TextProvider σ} {surface : Surface σ} {state final : σ}
    {ds offered : List Drawable} {outcome : Except String Unit}
    (h : (s.flatten text state).result = .ok ds)
    (hpaints : surface.Paints ds (s.flatten text state).state offered outcome final) :
    (draw s text surface state).result = outcome.mapError .surface ∧
      (draw s text surface state).state = final := by
  have hpainting : (draw s text surface state).painting =
      .ok (paint surface ds (s.flatten text state).state) := by
    simp only [draw, h, Except.map]
  simp only [Drawing.result, Drawing.state, hpainting]
  exact hpaints.paint

/-- A drawing with a provider and a surface that have states of their own. The surface is painted on
after the flattening has succeeded, and stays as it was if the flattening fails. -/
theorem draw_apart (s : Scene) (text : TextProvider σ) (surface : Surface τ) (state : σ) (t : τ) :
    let flattening := s.flatten text state
    let drawing := draw s text.first surface.second (state, t)
    match flattening.result with
    | .error e => drawing.result = .error (.eval e) ∧ drawing.state = (flattening.state, t)
    | .ok ds => ∃ offered outcome final, surface.Paints ds t offered outcome final ∧
        drawing.result = outcome.mapError .surface ∧ drawing.state = (flattening.state, final) := by
  intro flattening drawing
  obtain ⟨hresult, hstate⟩ := Beside.flatten_first text s state t
  cases h : flattening.result with
  | error e =>
    obtain ⟨hdrawing, hfinal⟩ := draw_of_error surface.second (hresult.trans h)
    exact ⟨hdrawing, hfinal.trans hstate⟩
  | ok ds =>
    obtain ⟨offered, outcome, final, hpaints⟩ := surface.exists_paints ds t
    have hbeside : surface.second.Paints ds (s.flatten text.first (state, t)).state offered outcome
        (flattening.state, final) := hstate ▸ hpaints.second flattening.state
    exact ⟨offered, outcome, final, hpaints, draw_of_ok (hresult.trans h) hbeside⟩

/-- A drawing makes all its requests first, those of the flattening. If the flattening fails, it makes
no call of the surface. Otherwise it makes one call for each drawable, in order, up to the first one
that the surface refuses, and it succeeds if all calls do. Recording changes nothing else, and the
state of a surface that has one of its own is changed by these calls only. -/
theorem draw_recorded (s : Scene) (text : TextProvider σ) (surface : Surface σ) (state : σ) :
    let flattening := s.flatten text state
    let drawing := draw s text surface state
    let recorded := draw s text.recorded surface.recorded (state, [])
    recorded.result = drawing.result ∧ recorded.state.1 = drawing.state ∧
    (∃ requests : List TextRequest,
      (s.flatten text.recorded (state, [])).state.2 = requests.map .ask ∧
      match flattening.result with
      | .error e =>
        drawing.result = .error (.eval e) ∧ drawing.state = flattening.state ∧
          recorded.state.2 = requests.map .ask
      | .ok ds =>
        ∃ offered outcome, surface.Paints ds flattening.state offered outcome drawing.state ∧
          drawing.result = outcome.mapError .surface ∧
          (drawing.result = .ok () ↔ ∃ final, forM ds surface.apply flattening.state = .ok () final) ∧
          recorded.state.2 = requests.map .ask ++ offered.map Drawable.effect) ∧
    ∀ (τ : Type) (canvas : Surface τ) (t : τ),
      let apart := draw s text.first canvas.second (state, t)
      match flattening.result with
      | .error e => apart.result = .error (.eval e) ∧ apart.state = (flattening.state, t)
      | .ok ds => ∃ offered outcome final, canvas.Paints ds t offered outcome final ∧
          apart.result = outcome.mapError .surface ∧ apart.state = (flattening.state, final) := by
  intro flattening drawing recorded
  obtain ⟨requests, hresult, hstate⟩ := exists_flatten_recorded s text state
  rw [← and_assoc, ← and_assoc]
  refine ⟨?_, fun τ canvas t => draw_apart s text canvas state t⟩
  cases h : flattening.result with
  | error e =>
    obtain ⟨hdrawing, hfinal⟩ := draw_of_error surface h
    obtain ⟨hrecorded, hlog⟩ := draw_of_error surface.recorded (hresult.trans h)
    rw [hstate] at hlog
    refine ⟨⟨hrecorded.trans hdrawing.symm, ?_⟩, requests, ?_, hdrawing, hfinal, ?_⟩
    · exact (congrArg Prod.fst hlog).trans hfinal.symm
    · rw [hstate]
    · exact congrArg Prod.snd hlog
  | ok ds =>
    obtain ⟨offered, outcome, final, hpaints⟩ := surface.exists_paints ds flattening.state
    obtain ⟨hdrawing, hfinal⟩ := draw_of_ok h hpaints
    have hrecording : surface.recorded.Paints ds (s.flatten text.recorded (state, [])).state offered
        outcome (final, requests.map .ask ++ offered.map Drawable.effect) :=
      hstate ▸ hpaints.recorded (requests.map .ask)
    obtain ⟨hrecorded, hlog⟩ := draw_of_ok (hresult.trans h) hrecording
    refine ⟨⟨hrecorded.trans hdrawing.symm, ?_⟩, requests, ?_, offered, outcome, ?_, hdrawing, ?_, ?_⟩
    · exact (congrArg Prod.fst hlog).trans hfinal.symm
    · rw [hstate]
    · exact hfinal ▸ hpaints
    · rw [← hpaints.ok_iff, hdrawing]
      cases outcome with
      | ok _ => exact ⟨fun _ => rfl, fun _ => rfl⟩
      | error report => exact ⟨nofun, nofun⟩
    · exact congrArg Prod.snd hlog

end VectorScene
