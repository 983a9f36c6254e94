import VectorScene.Proofs.Scene.Flatten
import VectorScene.Surface

/-!
# States beside each other

A text provider may carry a state of its own beside another state, which it leaves as it is or only
takes along a relation, such as a log that it extends. `Beside R y x` says so of a step `y` on two
states, of which the first is that of `x`. What holds of the answers of a provider holds of
everything that asks it: `Beside.flatten` says that a flattening finishes the same drawables or fails
in the same way, leaves the first state as it would be without the second one, and takes the second
one along the relation.
-/

namespace VectorScene

variable {α β δ ε σ τ : Type}

/-- Each step has an outcome. -/
theorem exists_outcomeAt (x : EStateM ε σ α) (s : σ) : ∃ s' result, x s = outcomeAt s' result := by
  cases h : x s with
  | ok a s' => exact ⟨s', .ok a, rfl⟩
  | error e s' => exact ⟨s', .error e, rfl⟩

theorem onFirst_apply {x : EStateM ε σ α} {s s' : σ} {result : Except ε α}
    (h : x s = outcomeAt s' result) (t : τ) : onFirst x (s, t) = outcomeAt (s', t) result := by
  simp only [onFirst, h]
  cases result <;> rfl

theorem onSecond_apply {x : EStateM ε σ α} {s s' : σ} {result : Except ε α}
    (h : x s = outcomeAt s' result) (t : τ) : onSecond x (t, s) = outcomeAt (t, s') result := by
  simp only [onSecond, h]
  cases result <;> rfl

/-- If a step on two states sets the second one and the next step leaves that one as it is, both
together set it. -/
theorem onFirst_bind {y : EStateM ε (σ × τ) α} {x : EStateM ε σ α} {g : α → EStateM ε (σ × τ) β}
    {f : α → EStateM ε σ β} {s : σ} {t t' : τ} (h : y (s, t) = onFirst x (s, t'))
    (hf : ∀ a s, g a (s, t') = onFirst (f a) (s, t')) :
    (y >>= g) (s, t) = onFirst (x >>= f) (s, t') := by
  obtain ⟨s', result, hx⟩ := exists_outcomeAt x s
  rw [onFirst_apply hx] at h
  rw [bind_apply g h]
  simp only [onFirst, bind_apply f hx]
  cases result with
  | error e => rfl
  | ok a => exact hf a s'

/-- On the first of two states, `y` does what `x` does; it takes the second one along `R`. -/
def Beside (R : τ → τ → Prop) (y : EStateM ε (σ × τ) α) (x : EStateM ε σ α) : Prop :=
  ∀ s t, ∃ t', R t t' ∧ y (s, t) = onFirst x (s, t')

namespace Beside

variable {R : τ → τ → Prop}

/-- A step that leaves both states as they are. -/
theorem of_outcomeAt (hrefl : ∀ t, R t t) {y : EStateM ε (σ × τ) α} {x : EStateM ε σ α}
    (result : Except ε α) (hy : ∀ s, y s = outcomeAt s result) (hx : ∀ s, x s = outcomeAt s result) :
    Beside R y x :=
  fun s t => ⟨t, hrefl t, (hy (s, t)).trans (onFirst_apply (hx s) t).symm⟩

theorem bind (htrans : ∀ a b c, R a b → R b c → R a c) {y : EStateM ε (σ × τ) α}
    {x : EStateM ε σ α} {g : α → EStateM ε (σ × τ) β} {f : α → EStateM ε σ β} (h : Beside R y x)
    (hf : ∀ a, Beside R (g a) (f a)) : Beside R (y >>= g) (x >>= f) := by
  intro s t
  obtain ⟨t₁, hR, hy⟩ := h s t
  obtain ⟨s₁, result, hx⟩ := exists_outcomeAt x s
  rw [onFirst_apply hx] at hy
  cases result with
  | error e =>
    have hfail : (x >>= f) s = outcomeAt s₁ (.error e) := bind_apply f hx
    exact ⟨t₁, hR, (bind_apply g hy).trans (onFirst_apply hfail t₁).symm⟩
  | ok a =>
    obtain ⟨t₂, hR₂, hg⟩ := hf a s₁ t₁
    refine ⟨t₂, htrans t t₁ t₂ hR hR₂, ?_⟩
    have hnext : onFirst (x >>= f) (s, t₂) = onFirst (f a) (s₁, t₂) := by
      simp only [onFirst, bind_apply f hx]
    rw [bind_apply g hy, hnext]
    exact hg

theorem adaptExcept {y : EStateM ε (σ × τ) α} {x : EStateM ε σ α} (h : Beside R y x) (f : ε → δ) :
    Beside R (y.adaptExcept f) (x.adaptExcept f) := by
  intro s t
  obtain ⟨t', hR, hy⟩ := h s t
  obtain ⟨s', result, hx⟩ := exists_outcomeAt x s
  rw [onFirst_apply hx] at hy
  refine ⟨t', hR, ?_⟩
  rw [adaptExcept_outcomeAt hy, onFirst_apply (adaptExcept_outcomeAt hx f)]

theorem mapM (hrefl : ∀ t, R t t) (htrans : ∀ a b c, R a b → R b c → R a c)
    {g : α → EStateM ε (σ × τ) β} {f : α → EStateM ε σ β} (h : ∀ a, Beside R (g a) (f a))
    (xs : List α) : Beside R (xs.mapM g) (xs.mapM f) := by
  induction xs with
  | nil => exact of_outcomeAt hrefl (.ok []) (fun _ => rfl) fun _ => rfl
  | cons x xs ih =>
    rw [List.mapM_cons, List.mapM_cons]
    refine bind htrans (h x) fun b => bind htrans ih fun bs => ?_
    exact of_outcomeAt hrefl (.ok (b :: bs)) (fun _ => rfl) fun _ => rfl

/-! ## Text providers -/

theorem geometry (hrefl : ∀ t, R t t) (result : Except GeometryError α) :
    Beside R (EvalM.geometry result : EvalM (σ × τ) α) (EvalM.geometry result) :=
  of_outcomeAt hrefl (result.mapError .geometry) (ofExcept_apply _) (ofExcept_apply _)

variable (text' : TextProvider (σ × τ)) (text : TextProvider σ)

theorem render (hrefl : ∀ t, R t t) (htrans : ∀ a b c, R a b → R b c → R a c)
    (h : ∀ request, Beside R (text'.outlines request) (text.outlines request)) (i : Item) (m : Affine) :
    Beside R (i.render text' m) (i.render text m) := by
  have hask : ∀ request, Beside R (EvalM.ask text' request) (EvalM.ask text request) :=
    fun request => (h request).adaptExcept EvalError.text
  have houtline : Beside R (i.outline text') (i.outline text) := by
    cases i with
    | shape _ primitive => exact geometry hrefl primitive.toPath
    | text _ s options => exact hask _
    | textAlong _ s options primitive =>
      exact bind htrans (geometry hrefl primitive.toPath) fun _ => hask _
  refine bind htrans houtline fun outline => bind htrans (geometry hrefl _) fun _ => ?_
  exact of_outcomeAt hrefl (.ok { tool := i.tool, path := outline.transformed m })
    (fun _ => rfl) fun _ => rfl

/-- A flattening with a provider that carries another state beside its own. -/
theorem flatten (hrefl : ∀ t, R t t) (htrans : ∀ a b c, R a b → R b c → R a c)
    (h : ∀ request, Beside R (text'.outlines request) (text.outlines request)) (s : Scene)
    (state : σ) (t : τ) : ∃ t', R t t' ∧
      (s.flatten text' (state, t)).result = (s.flatten text state).result ∧
      (s.flatten text' (state, t)).state = ((s.flatten text state).state, t') := by
  have hrender : Beside R (s.render text' Affine.identity) (s.render text Affine.identity) := by
    rw [Scene.render_eq_mapM, Scene.render_eq_mapM]
    exact mapM hrefl htrans (fun p : Placed => render text' text hrefl htrans h p.item p.transform) _
  obtain ⟨t', hR, heq⟩ := hrender state t
  refine ⟨t', hR, ?_⟩
  have houtcome : (s.flatten text' (state, t)).outcome =
      outcomeAt ((s.flatten text state).state, t') (s.flatten text state).result := by
    rw [Scene.outcome_flatten, heq, onFirst_apply (Scene.outcome_flatten text s state).symm]
  obtain ⟨hstate, hresult⟩ := outcomeAt_inj houtcome
  exact ⟨hresult, hstate⟩

/-- A provider changes no state beside its own. -/
theorem flatten_first (text : TextProvider σ) (s : Scene) (state : σ) (t : τ) :
    (s.flatten text.first (state, t)).result = (s.flatten text state).result ∧
      (s.flatten text.first (state, t)).state = ((s.flatten text state).state, t) := by
  obtain ⟨t', rfl, hresult, hstate⟩ := flatten text.first text (R := Eq) (fun _ => rfl)
    (fun _ _ _ => Eq.trans) (fun _ _ t => ⟨t, rfl, rfl⟩) s state t
  exact ⟨hresult, hstate⟩

end Beside

end VectorScene
