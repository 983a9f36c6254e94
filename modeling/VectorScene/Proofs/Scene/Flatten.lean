import VectorScene.Proofs.Fallible
import VectorScene.Scene.Flatten

/-!
# Flattening, by recursion on the scene

`Scene.flatten` works on a stack of scenes. `outcome_flatten` says that it does what `Scene.render`
does by recursion, for any text provider: the same drawables or the same failure, and the same state
of the provider at the end. Both follow from `outcome_flattenAll_cons`, which is about one scene on
top of any stack.

For a provider that answers by a function, the meaning of a scene needs no state. It is stated in
two ways that agree (`drawablesBy_eq_mapM`):

* `Scene.drawablesBy`, by recursion on the scene, with the results of a union joined by `++`;
* `Scene.placed`, the items of the scene from left to right, each with its transform, of which
  `Item.drawableBy` is taken one after the other until one fails.

`Placed.requestsBy` reads the requests of a scene off the second one, and `mapM_render_noting` says
that these are the requests that a provider sees.
-/

namespace VectorScene

variable {σ : Type}

/-! ## The stack -/

/-- The result of a flattening, and the state it leaves, as the outcome of a step. -/
def Flattening.outcome (f : Flattening σ) : EStateM.Result EvalError σ (List Drawable) :=
  outcomeAt f.state f.result

namespace Scene

/-- A scene on top of the stack is rendered before the rest of the stack is looked at. -/
theorem outcome_flattenAll_cons (text : TextProvider σ) (s : Scene) (m : Affine)
    (rest : List (Scene × Affine)) (done : Array Drawable) (state : σ) :
    (flattenAll text ((s, m) :: rest) done state).outcome =
      match s.render text m state with
      | .ok ds state => (flattenAll text rest (done ++ ds.toArray) state).outcome
      | .error e state => .error e state := by
  induction s generalizing m rest done state with
  | empty => simp [flattenAll, render, pure, EStateM.pure]
  | item _ i =>
    simp only [flattenAll, render, bind, EStateM.bind, pure, EStateM.pure]
    cases i.render text m state with
    | ok d state => simp
    | error e state => rfl
  | union _ a b iha ihb =>
    rw [flattenAll, iha]
    simp only [render, bind, EStateM.bind, pure, EStateM.pure]
    cases a.render text m state with
    | error e state => rfl
    | ok ds state =>
      simp only [ihb]
      cases b.render text m state with
      | error e state => rfl
      | ok ds' state => simp [List.append_toArray, Array.append_assoc]
  | transformed _ inner s ih => rw [flattenAll, ih, render]

/-- Flattening does what rendering does, for any provider. -/
theorem outcome_flatten (text : TextProvider σ) (s : Scene) (state : σ) :
    (s.flatten text state).outcome = s.render text Affine.identity state := by
  rw [flatten, outcome_flattenAll_cons]
  cases s.render text Affine.identity state <;>
    simp [flattenAll, Flattening.outcome, Flattening.result, outcomeAt]

end Scene

/-! ## Providers that answer by a function -/

/-- The provider that answers by a function, after it has noted the request in its state. -/
def TextProvider.noting (answer : TextRequest → Except String Path) (note : TextRequest → σ → σ) :
    TextProvider σ :=
  ⟨fun request => do
    modify (note request)
    ofExcept (answer request)⟩

theorem TextProvider.ofFunction_eq_noting (answer : TextRequest → Except String Path) :
    (TextProvider.ofFunction answer : TextProvider σ) = .noting answer fun _ state => state := rfl

variable (answer : TextRequest → Except String Path)

theorem ask_noting (note : TextRequest → σ → σ) (request : TextRequest) (state : σ) :
    EvalM.ask (.noting answer note) request state =
      outcomeAt (note request state) ((answer request).mapError .text) := by
  have h : (TextProvider.noting answer note).outlines request state =
      outcomeAt (note request state) (answer request) :=
    ofExcept_apply (answer request) (note request state)
  exact adaptExcept_outcomeAt h EvalError.text

namespace Item

/-- The path of an item in its own coordinates. -/
def outlineBy : Item → Except EvalError Path
  | shape _ primitive => primitive.toPath.mapError .geometry
  | text _ s options => (answer { text := s, options }).mapError .text
  | textAlong _ s options primitive =>
    match primitive.toPath with
    | .ok along => (answer { text := s, options, along := some along }).mapError .text
    | .error e => .error (.geometry e)

/-- The item under a transform; every point of the result must be finite. -/
def drawableBy (i : Item) (m : Affine) : Except EvalError Drawable :=
  match i.outlineBy answer with
  | .ok outline =>
    if (outline.transformed m).points.all Point.isFinite then
      .ok { tool := i.tool, path := outline.transformed m }
    else .error (.geometry (.nonFinite .transformed))
  | .error e => .error e

/-- The request that an item makes. A text along a primitive that has no path makes none. -/
def request? : Item → Option TextRequest
  | shape _ _ => none
  | text _ s options => some { text := s, options }
  | textAlong _ s options primitive =>
    match primitive.toPath with
    | .ok along => some { text := s, options, along := some along }
    | .error _ => none

/-- The state of a provider that has noted the request of an item. -/
def noted (note : TextRequest → σ → σ) (i : Item) (state : σ) : σ :=
  i.request?.elim state fun request => note request state

theorem outline_noting (note : TextRequest → σ → σ) (i : Item) (state : σ) :
    i.outline (.noting answer note) state = outcomeAt (i.noted note state) (i.outlineBy answer) := by
  cases i with
  | shape _ primitive => rw [outline, EvalM.geometry, ofExcept_apply]; rfl
  | text _ s options => rw [outline, ask_noting]; rfl
  | textAlong _ s options primitive =>
    have hpath : (EvalM.geometry primitive.toPath : EvalM σ Path) state =
        outcomeAt state (primitive.toPath.mapError .geometry) := ofExcept_apply _ state
    rw [outline, bind_apply _ hpath]
    simp only [outlineBy, noted, request?]
    cases primitive.toPath with
    | error e => rfl
    | ok along => exact ask_noting answer note _ state

theorem render_noting (note : TextRequest → σ → σ) (i : Item) (m : Affine) (state : σ) :
    i.render (.noting answer note) m state =
      outcomeAt (i.noted note state) (i.drawableBy answer m) := by
  rw [render, bind_apply _ (outline_noting answer note i state), drawableBy]
  cases i.outlineBy answer with
  | error e => rfl
  | ok outline =>
    simp only [EvalM.geometry, Path.check, Point.checkAll]
    cases (outline.transformed m).points.all Point.isFinite <;> rfl

end Item

/-- An item of a scene, with the composition of the transforms above it. -/
structure Placed where
  item : Item
  transform : Affine

namespace Placed

/-- The drawable of a placed item. -/
def drawableBy (p : Placed) : Except EvalError Drawable := p.item.drawableBy answer p.transform

/-- What the flattening of a placed item does. -/
def render (text : TextProvider σ) (p : Placed) : EvalM σ Drawable :=
  p.item.render text p.transform

/-- The requests of placed items of which each is tried until one fails. -/
def requestsBy (ps : List Placed) : List TextRequest :=
  (tried (drawableBy answer) ps).filterMap fun p => p.item.request?

theorem requestsBy_cons_ok {p : Placed} {d : Drawable} (ps : List Placed)
    (h : p.drawableBy answer = .ok d) :
    requestsBy answer (p :: ps) = p.item.request?.toList ++ requestsBy answer ps := by
  rw [requestsBy, tried_cons_ok ps h, List.filterMap_cons]
  cases p.item.request? <;> rfl

theorem requestsBy_cons_error {p : Placed} {e : EvalError} (ps : List Placed)
    (h : p.drawableBy answer = .error e) :
    requestsBy answer (p :: ps) = p.item.request?.toList := by
  rw [requestsBy, tried_cons_error ps h, List.filterMap_cons]
  cases p.item.request? <;> rfl

/-- Placed items are rendered up to the first failure, and the provider notes the requests of these
items and no others. -/
theorem mapM_render_noting (note : TextRequest → σ → σ) (ps : List Placed) (state : σ) :
    (ps.mapM (render (.noting answer note))) state =
      outcomeAt ((requestsBy answer ps).foldl (fun state request => note request state) state)
        (ps.mapM (drawableBy answer)) := by
  induction ps generalizing state with
  | nil => rfl
  | cons p ps ih =>
    have hp : p.render (.noting answer note) state =
        outcomeAt (p.item.noted note state) (p.drawableBy answer) :=
      p.item.render_noting answer note p.transform state
    have hnoted : p.item.noted note state =
        p.item.request?.toList.foldl (fun state request => note request state) state := by
      cases h : p.item.request? <;> simp [Item.noted, h]
    rw [List.mapM_cons, bind_apply _ hp]
    cases h : p.drawableBy answer with
    | error e => rw [mapM_cons_error ps h, requestsBy_cons_error answer ps h, ← hnoted]; rfl
    | ok d =>
      rw [mapM_cons_ok ps h, requestsBy_cons_ok answer ps h, List.foldl_append, ← hnoted]
      simp only [bind_apply _ (ih (p.item.noted note state))]
      cases ps.mapM (drawableBy answer) <;> rfl

end Placed

namespace Scene

/-- The drawables of a scene under a transform. -/
def drawablesBy : Scene → Affine → Except EvalError (List Drawable)
  | empty, _ => .ok []
  | item _ i, m => do return [← i.drawableBy answer m]
  | union _ a b, m => do return (← a.drawablesBy m) ++ (← b.drawablesBy m)
  | transformed _ inner s, m => s.drawablesBy (Affine.compose m inner)

/-- The items of a scene from left to right, in a scene under a transform. -/
def placed : Scene → Affine → List Placed
  | empty, _ => []
  | item _ i, m => [⟨i, m⟩]
  | union _ a b, m => a.placed m ++ b.placed m
  | transformed _ inner s, m => s.placed (Affine.compose m inner)

theorem drawablesBy_eq_mapM (s : Scene) (m : Affine) :
    s.drawablesBy answer m = (s.placed m).mapM (Placed.drawableBy answer) := by
  induction s generalizing m with
  | empty => rfl
  | item _ i => rw [drawablesBy, placed, List.mapM_cons]; rfl
  | union _ a b iha ihb => rw [drawablesBy, placed, List.mapM_append, iha, ihb]
  | transformed _ inner s ih => rw [drawablesBy, placed, ih]

theorem render_eq_mapM (text : TextProvider σ) (s : Scene) (m : Affine) :
    s.render text m = (s.placed m).mapM (Placed.render text) := by
  induction s generalizing m with
  | empty => rfl
  | item _ i => rw [render, placed, List.mapM_cons]; rfl
  | union _ a b iha ihb => rw [render, placed, List.mapM_append, iha, ihb]
  | transformed _ inner s ih => rw [render, placed, ih]

/-- A flattening with a provider that answers by a function. -/
theorem outcome_flatten_noting (note : TextRequest → σ → σ) (s : Scene) (state : σ) :
    (s.flatten (.noting answer note) state).outcome =
      outcomeAt ((Placed.requestsBy answer (s.placed Affine.identity)).foldl
        (fun state request => note request state) state) (s.drawablesBy answer Affine.identity) := by
  rw [outcome_flatten, render_eq_mapM, Placed.mapM_render_noting, drawablesBy_eq_mapM]

/-- Flattening returns what the recursion from left to right returns, and the provider notes the
requests of the items up to and including the first one that fails. -/
theorem flatten_eq_drawablesBy (s : Scene) (note : TextRequest → σ → σ) (state : σ)
    (log : List TextRequest) :
    (s.flatten (.noting answer note) state).result = s.drawablesBy answer Affine.identity ∧
    (s.flatten (.noting answer fun request log => log ++ [request]) log).state =
      log ++ Placed.requestsBy answer (s.placed Affine.identity) ∧
    ∀ e, s.drawablesBy answer Affine.identity = .error e ↔
      ∃ before p after, s.placed Affine.identity = before ++ p :: after ∧
        (∀ q ∈ before, ∃ d, q.drawableBy answer = .ok d) ∧ p.drawableBy answer = .error e ∧
        Placed.requestsBy answer (s.placed Affine.identity) =
          (before ++ [p]).filterMap fun q => q.item.request? := by
  refine ⟨?_, ?_, fun e => ?_⟩
  · exact (outcomeAt_inj (outcome_flatten_noting answer note s state)).2
  · rw [(outcomeAt_inj (outcome_flatten_noting answer _ s log)).1]
    generalize Placed.requestsBy answer (s.placed Affine.identity) = requests
    induction requests generalizing log with
    | nil => simp
    | cons request requests ih => simp [ih]
  · rw [drawablesBy_eq_mapM, mapM_eq_error_iff]
    constructor
    · rintro ⟨before, p, after, hs, hok, hp⟩
      refine ⟨before, p, after, hs, hok, hp, ?_⟩
      rw [Placed.requestsBy, hs, tried_append_error after hok hp]
    · rintro ⟨before, p, after, hs, hok, hp, -⟩
      exact ⟨before, p, after, hs, hok, hp⟩

end Scene

end VectorScene
