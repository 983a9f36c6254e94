/-!
# Fallible steps

A step of `EStateM` that leaves the same state whether it fails or not is a result in `Except` and
that state; `outcomeAt` puts the two together, and `bind_apply` says what follows such a step.

`List.mapM` in `Except` tries the items of a list in order and stops at the first that fails.
`tried` is the list of items that it tries: those that succeed, and the one that fails.
`mapM_eq_error_iff` says which failure is reported, and `mapM_eq_ok_iff` what is returned if there is
none. Steps on a state that are done for each item of a list stop in the same way (`forM_cases`).
-/

namespace VectorScene

variable {α β δ ε σ : Type}

/-- The outcome of a step with the given result, which leaves the state `state`. -/
def outcomeAt (state : σ) : Except ε α → EStateM.Result ε σ α
  | .ok a => .ok a state
  | .error e => .error e state

theorem outcomeAt_inj {state state' : σ} {x y : Except ε α}
    (h : outcomeAt state x = outcomeAt state' y) : state = state' ∧ x = y := by
  cases x <;> cases y <;> simp_all [outcomeAt]

theorem ofExcept_apply (x : Except ε α) (state : σ) :
    (ofExcept x : EStateM ε σ α) state = outcomeAt state x := by
  cases x <;> rfl

theorem adaptExcept_outcomeAt {x : EStateM ε σ α} {state state' : σ} {result : Except ε α}
    (h : x state = outcomeAt state' result) (f : ε → δ) :
    x.adaptExcept f state = outcomeAt state' (result.mapError f) := by
  unfold EStateM.adaptExcept
  simp only [h]
  cases result <;> rfl

/-- A step hands its result and its state to the next one, unless it fails. -/
theorem bind_apply {x : EStateM ε σ α} {state state' : σ} {result : Except ε α}
    (next : α → EStateM ε σ β) : x state = outcomeAt state' result →
      (x >>= next) state =
        match result with
        | .ok a => next a state'
        | .error e => .error e state' := by
  intro h
  show EStateM.bind x next state = _
  rw [EStateM.bind, h]
  cases result <;> rfl

theorem bind_of_ok {x : EStateM ε σ α} {state state' : σ} {a : α} (h : x state = .ok a state')
    (next : α → EStateM ε σ β) : (x >>= next) state = next a state' :=
  bind_apply next (show x state = outcomeAt state' (.ok a) from h)

/-- A step that succeeds together with the next one succeeds first. -/
theorem exists_of_bind_ok {x : EStateM ε σ α} {next : α → EStateM ε σ β} {state final : σ} {b : β}
    (h : (x >>= next) state = .ok b final) :
    ∃ a middle, x state = .ok a middle ∧ next a middle = .ok b final := by
  cases hx : x state with
  | ok a middle => exact ⟨a, middle, rfl, bind_of_ok hx next ▸ h⟩
  | error e middle =>
    rw [bind_apply next (show x state = outcomeAt middle (.error e) from hx)] at h
    cases h

/-- Two steps that leave the state as it is leave it as it is together. -/
theorem bind_outcomeAt {x : EStateM ε σ α} {state : σ} {result : Except ε α}
    {next : α → EStateM ε σ β} {nextResult : α → Except ε β} (h : x state = outcomeAt state result)
    (hnext : ∀ a, next a state = outcomeAt state (nextResult a)) :
    (x >>= next) state = outcomeAt state (result >>= nextResult) := by
  rw [bind_apply next h]
  cases result with
  | ok a => exact hnext a
  | error e => rfl

theorem exists_of_isOk {x : Except ε α} (h : x.isOk) : ∃ a, x = .ok a := by
  cases x with
  | error e => cases h
  | ok a => exact ⟨a, rfl⟩

theorem bind_eq_ok_iff {x : Except ε α} {f : α → Except ε β} {b : β} :
    x >>= f = .ok b ↔ ∃ a, x = .ok a ∧ f a = .ok b := by
  cases x with
  | ok a => exact ⟨fun h => ⟨a, rfl, h⟩, fun ⟨_, h, hf⟩ => Except.ok.inj h ▸ hf⟩
  | error e => exact ⟨nofun, fun ⟨_, h, _⟩ => nomatch h⟩

theorem map_eq_ok_iff {x : Except ε α} {f : α → β} {b : β} :
    x.map f = .ok b ↔ ∃ a, x = .ok a ∧ f a = b := by
  cases x with
  | ok a => exact ⟨fun h => ⟨a, rfl, Except.ok.inj h⟩, fun ⟨_, h, hf⟩ => by cases h; rw [← hf]; rfl⟩
  | error e => exact ⟨nofun, fun ⟨_, h, _⟩ => nomatch h⟩

/-! ## Lists -/

theorem mapM_outcomeAt {f : α → EStateM ε σ β} {g : α → Except ε β} {state : σ}
    (h : ∀ x, f x state = outcomeAt state (g x)) (xs : List α) :
    xs.mapM f state = outcomeAt state (xs.mapM g) := by
  induction xs with
  | nil => rfl
  | cons x xs ih =>
    rw [List.mapM_cons, List.mapM_cons]
    exact bind_outcomeAt (h x) fun _ => bind_outcomeAt ih fun _ => rfl

/-- Going through lists one after the other is going through each of them. -/
theorem mapM_flatMap {m : Type → Type} [Monad m] [LawfulMonad m] {γ : Type} (f : α → List β)
    (g : β → m γ) (xs : List α) :
    (xs.flatMap f).mapM g = List.flatten <$> xs.mapM fun x => (f x).mapM g := by
  induction xs with
  | nil => rw [List.flatMap_nil, List.mapM_nil, List.mapM_nil, map_pure]; rfl
  | cons x xs ih =>
    rw [List.flatMap_cons, List.mapM_append, ih, List.mapM_cons]
    simp

/-- The items that are tried: all those before the first failure, and the failing one. -/
def tried (f : α → Except ε β) (xs : List α) : List α :=
  xs.take ((xs.takeWhile fun x => (f x).isOk).length + 1)

theorem tried_cons_ok {f : α → Except ε β} {x : α} {b : β} (xs : List α) (h : f x = .ok b) :
    tried f (x :: xs) = x :: tried f xs := by
  simp [tried, h, Except.isOk, Except.toBool]

theorem tried_cons_error {f : α → Except ε β} {x : α} {e : ε} (xs : List α) (h : f x = .error e) :
    tried f (x :: xs) = [x] := by
  simp [tried, h, Except.isOk, Except.toBool]

/-- Of a list whose first failure is known, the items before it and the failing one are tried. -/
theorem tried_append_error {f : α → Except ε β} {before : List α} {x : α} {e : ε} (after : List α)
    (hok : ∀ y ∈ before, ∃ b, f y = .ok b) (hx : f x = .error e) :
    tried f (before ++ x :: after) = before ++ [x] := by
  induction before with
  | nil => exact tried_cons_error after hx
  | cons y before ih =>
    obtain ⟨⟨b, hb⟩, hok⟩ := List.forall_mem_cons.mp hok
    rw [List.cons_append, tried_cons_ok _ hb, ih hok, List.cons_append]

theorem mapM_cons_ok {f : α → Except ε β} {x : α} {b : β} (xs : List α) (h : f x = .ok b) :
    (x :: xs).mapM f = (xs.mapM f).map (b :: ·) := by
  rw [List.mapM_cons, h]
  cases xs.mapM f <;> rfl

theorem mapM_cons_error {f : α → Except ε β} {x : α} {e : ε} (xs : List α) (h : f x = .error e) :
    (x :: xs).mapM f = .error e := by
  rw [List.mapM_cons, h]; rfl

/-- A list of steps succeeds if each of them does, with the results in order. -/
theorem mapM_eq_ok_iff {f : α → Except ε β} {xs : List α} {ys : List β} :
    xs.mapM f = .ok ys ↔ xs.map f = ys.map .ok := by
  induction xs generalizing ys with
  | nil => cases ys <;> simp [pure, Except.pure]
  | cons x xs ih =>
    cases hx : f x with
    | error e => cases ys <;> simp [mapM_cons_error xs hx, hx]
    | ok b =>
      rw [mapM_cons_ok xs hx, List.map_cons, hx]
      cases ys with
      | nil => cases xs.mapM f <;> simp [Except.map]
      | cons y ys =>
        rw [List.map_cons, List.cons.injEq, ← ih]
        cases xs.mapM f <;> simp [Except.map]

/-- If a step succeeds where a condition holds, and with a known result, then so does a list of them. -/
theorem mapM_eq_ok_iff_of {f : α → Except ε β} {P : α → Prop} {g : α → β}
    (h : ∀ x b, f x = .ok b ↔ P x ∧ b = g x) {xs : List α} {ys : List β} :
    xs.mapM f = .ok ys ↔ (∀ x ∈ xs, P x) ∧ ys = xs.map g := by
  rw [mapM_eq_ok_iff]
  induction xs generalizing ys with
  | nil => cases ys <;> simp
  | cons x xs ih =>
    cases ys with
    | nil => simp
    | cons y ys =>
      rw [List.map_cons, List.map_cons, List.cons.injEq, ih, h, List.map_cons, List.cons.injEq,
        List.forall_mem_cons]
      exact ⟨fun ⟨⟨hx, hy⟩, hxs, hys⟩ => ⟨⟨hx, hxs⟩, hy, hys⟩,
        fun ⟨⟨hx, hxs⟩, hy, hys⟩ => ⟨⟨hx, hy⟩, hxs, hys⟩⟩

/-- Each result of a list of steps is the result of one of them. -/
theorem exists_of_mem_mapM {f : α → Except ε β} {xs : List α} {ys : List β} (h : xs.mapM f = .ok ys) :
    ∀ y ∈ ys, ∃ x ∈ xs, f x = .ok y := by
  induction xs generalizing ys with
  | nil =>
    cases h
    nofun
  | cons x xs ih =>
    rw [List.mapM_cons, bind_eq_ok_iff] at h
    obtain ⟨b, hb, h⟩ := h
    obtain ⟨bs, hbs, h⟩ := bind_eq_ok_iff.mp h
    cases h
    refine List.forall_mem_cons.mpr ⟨⟨x, List.mem_cons_self, hb⟩, fun y hy => ?_⟩
    obtain ⟨z, hz, hy⟩ := ih hbs y hy
    exact ⟨z, List.mem_cons_of_mem x hz, hy⟩

/-- Each item of a list of steps that succeeds has a result. -/
theorem exists_of_mapM_ok {f : α → Except ε β} {xs : List α} {ys : List β} (h : xs.mapM f = .ok ys) :
    ∀ x ∈ xs, ∃ y ∈ ys, f x = .ok y := by
  intro x hx
  have hmem : f x ∈ ys.map .ok := mapM_eq_ok_iff.mp h ▸ List.mem_map_of_mem hx
  obtain ⟨y, hy, hfx⟩ := List.mem_map.mp hmem
  exact ⟨y, hy, hfx.symm⟩

/-- The failure of a list of steps is the first one. -/
theorem mapM_eq_error_iff {f : α → Except ε β} {xs : List α} {e : ε} :
    xs.mapM f = .error e ↔ ∃ before x after, xs = before ++ x :: after ∧
      (∀ y ∈ before, ∃ b, f y = .ok b) ∧ f x = .error e := by
  induction xs with
  | nil =>
    refine ⟨fun h => (nomatch h), fun ⟨before, x, after, h, _⟩ => ?_⟩
    simp at h
  | cons a xs ih =>
    cases ha : f a with
    | error e' =>
      rw [mapM_cons_error xs ha]
      constructor
      · intro h
        rw [Except.error.inj h] at ha
        exact ⟨[], a, xs, rfl, fun _ h => (nomatch h), ha⟩
      · rintro ⟨before, x, after, hxs, hok, hx⟩
        cases before with
        | nil =>
          obtain ⟨rfl, rfl⟩ := List.cons.inj hxs
          rw [Except.error.inj (ha.symm.trans hx)]
        | cons y before =>
          obtain ⟨rfl, -⟩ := List.cons.inj hxs
          obtain ⟨b, hb⟩ := hok a List.mem_cons_self
          rw [hb] at ha; cases ha
    | ok b =>
      have hmap : (a :: xs).mapM f = .error e ↔ xs.mapM f = .error e := by
        rw [mapM_cons_ok xs ha]
        cases xs.mapM f <;> simp [Except.map]
      rw [hmap, ih]
      constructor
      · rintro ⟨before, x, after, rfl, hok, hx⟩
        exact ⟨a :: before, x, after, rfl, List.forall_mem_cons.mpr ⟨⟨b, ha⟩, hok⟩, hx⟩
      · rintro ⟨before, x, after, hxs, hok, hx⟩
        cases before with
        | nil =>
          obtain ⟨rfl, rfl⟩ := List.cons.inj hxs
          rw [hx] at ha; cases ha
        | cons y before =>
          obtain ⟨rfl, rfl⟩ := List.cons.inj hxs
          exact ⟨before, x, after, rfl, fun z hz => hok z (List.mem_cons_of_mem _ hz), hx⟩

/-! ## Lists of steps on a state -/

/-- If all steps succeed, the first one and then the others do. -/
theorem exists_of_mapM_cons {f : α → EStateM ε σ β} {x : α} {xs : List α} {ys : List β}
    {state final : σ} (h : (x :: xs).mapM f state = .ok ys final) :
    ∃ y next rest, f x state = .ok y next ∧ xs.mapM f next = .ok rest final ∧ ys = y :: rest := by
  rw [List.mapM_cons] at h
  obtain ⟨y, next, hx, h⟩ := exists_of_bind_ok h
  obtain ⟨rest, last, hxs, h⟩ := exists_of_bind_ok h
  cases h
  exact ⟨y, next, rest, hx, hxs, rfl⟩

/-- If all steps of two lists succeed, those of the first list and then those of the second one do. -/
theorem exists_of_mapM_append {f : α → EStateM ε σ β} {xs ys : List α} {zs : List β}
    {state final : σ} (h : (xs ++ ys).mapM f state = .ok zs final) :
    ∃ before after middle, xs.mapM f state = .ok before middle ∧ ys.mapM f middle = .ok after final ∧
      zs = before ++ after := by
  rw [List.mapM_append] at h
  obtain ⟨before, middle, hxs, h⟩ := exists_of_bind_ok h
  obtain ⟨after, last, hys, h⟩ := exists_of_bind_ok h
  cases h
  exact ⟨before, after, middle, hxs, hys, rfl⟩

/-- Each result of a list of steps is the result of one of them. -/
theorem exists_step_of_mem_mapM {f : α → EStateM ε σ β} {xs : List α} {ys : List β} {state final : σ}
    (h : xs.mapM f state = .ok ys final) :
    ∀ y ∈ ys, ∃ x ∈ xs, ∃ entered left, f x entered = .ok y left := by
  induction xs generalizing state ys with
  | nil =>
    cases h
    nofun
  | cons x xs ih =>
    obtain ⟨y, next, rest, hx, hxs, rfl⟩ := exists_of_mapM_cons h
    refine List.forall_mem_cons.mpr ⟨⟨x, List.mem_cons_self, state, next, hx⟩, fun z hz => ?_⟩
    obtain ⟨x', hx', hz⟩ := ih hxs z hz
    exact ⟨x', List.mem_cons_of_mem x hx', hz⟩

/-- A step that fails after those before it have succeeded is the failure of the whole list. -/
theorem mapM_append_of_error {f : α → EStateM ε σ β} {before : List α} {x : α} {ys : List β} {e : ε}
    {state middle final : σ} (hbefore : before.mapM f state = .ok ys middle)
    (hx : f x middle = .error e final) (after : List α) :
    (before ++ x :: after).mapM f state = .error e final := by
  rw [List.mapM_append, bind_of_ok hbefore, List.mapM_cons]
  simp only [bind, EStateM.bind, hx]

theorem forM_cons_of_ok {f : α → EStateM ε σ PUnit} {x : α} {state state' : σ} (xs : List α)
    (h : f x state = .ok ⟨⟩ state') : forM (x :: xs) f state = forM xs f state' := by
  rw [List.forM_cons]
  exact bind_of_ok h _

theorem forM_cons_of_error {f : α → EStateM ε σ PUnit} {x : α} {state state' : σ} {e : ε} (xs : List α)
    (h : f x state = .error e state') : forM (x :: xs) f state = .error e state' := by
  rw [List.forM_cons]
  exact bind_apply _ (show f x state = outcomeAt state' (.error e) from h)

/-- If all steps succeed, the first one and then the others do. -/
theorem exists_of_forM_cons {f : α → EStateM ε σ PUnit} {x : α} {xs : List α} {state final : σ}
    (h : forM (x :: xs) f state = .ok ⟨⟩ final) :
    ∃ next, f x state = .ok ⟨⟩ next ∧ forM xs f next = .ok ⟨⟩ final := by
  rw [List.forM_cons] at h
  obtain ⟨⟨⟩, next, hx, hxs⟩ := exists_of_bind_ok h
  exact ⟨next, hx, hxs⟩

theorem forM_append_of_ok {f : α → EStateM ε σ PUnit} {before : List α} {state state' : σ}
    (after : List α) (h : forM before f state = .ok ⟨⟩ state') :
    forM (before ++ after) f state = forM after f state' := by
  rw [List.forM_append]
  exact bind_of_ok h _

/-- All steps succeed, or one fails after those before it have succeeded. -/
theorem forM_cases (f : α → EStateM ε σ PUnit) (xs : List α) (state : σ) :
    (∃ final, forM xs f state = .ok ⟨⟩ final) ∨
      ∃ before x after middle e final, xs = before ++ x :: after ∧
        forM before f state = .ok ⟨⟩ middle ∧ f x middle = .error e final := by
  induction xs generalizing state with
  | nil => exact .inl ⟨state, rfl⟩
  | cons x xs ih =>
    cases hx : f x state with
    | error e final => exact .inr ⟨[], x, xs, state, e, final, rfl, rfl, hx⟩
    | ok _ next =>
      rw [forM_cons_of_ok xs hx]
      refine (ih next).imp id ?_
      rintro ⟨before, y, after, middle, e, final, rfl, hbefore, hy⟩
      exact ⟨x :: before, y, after, middle, e, final, rfl,
        (forM_cons_of_ok before hx).trans hbefore, hy⟩

end VectorScene
