import VectorScene.Proofs.Scene.Union
import VectorScene.Proofs.Surface.Drawing

/-!
# What a transform leaves as it is

A transform can be left out, composed with another one, cancelled or added to a scene, but the items
of the scene stay the same, from left to right (`items_transform`). Scenes with the same items make
the same requests in the same order and get the same answers, whatever the transforms in them, as long
as no item fails; so they flatten to drawables that differ in their coordinates only.

A `Drawable.form` is a drawable without its coordinates: the tool that paints it, and a path with the
same kinds of commands. `flatten_form_eq` compares two scenes with the same items by it.
-/

namespace VectorScene

variable {σ : Type}

/-! ## Forms -/

/-- The path with all of its points moved to the origin, so that the kinds of its commands are left. -/
def Path.form (p : Path) : Path := ⟨p.commands.map (Command.map fun _ => Point.origin)⟩

theorem Path.form_transformed (p : Path) (m : Affine) : (p.transformed m).form = p.form := by
  have hmap : ∀ c : Command, (c.map m.apply).map (fun _ => Point.origin) =
      c.map fun _ => Point.origin := by
    intro c
    cases c with
    | moveTo p => rfl
    | draw s => cases s <;> rfl
    | close => rfl
  unfold transformed
  split
  · rfl
  · simp only [form, List.map_map, mk.injEq]
    exact List.map_congr_left fun c _ => hmap c

/-- What is left of a drawable without its coordinates. -/
def Drawable.form (d : Drawable) : Drawable := { tool := d.tool, path := d.path.form }

@[simp]
theorem Drawable.tool_form (d : Drawable) : d.form.tool = d.tool := rfl

@[simp]
theorem Drawable.path_form (d : Drawable) : d.form.path = d.path.form := rfl

/-! ## Two renderings of the same items -/

theorem Item.exists_of_render {text : TextProvider σ} {i : Item} {m : Affine} {state final : σ}
    {d : Drawable} (h : i.render text m state = .ok d final) :
    ∃ outline, i.outline text state = .ok outline final ∧
      d = { tool := i.tool, path := outline.transformed m } := by
  obtain ⟨outline, next, houtline, h⟩ := exists_of_bind_ok h
  obtain ⟨⟨⟩, last, hcheck, h⟩ := exists_of_bind_ok h
  cases h
  -- The check leaves the state as it is.
  have hlast : outcomeAt next (((outline.transformed m).check .transformed).mapError EvalError.geometry) =
      outcomeAt final (.ok ()) := (ofExcept_apply _ next).symm.trans hcheck
  obtain ⟨rfl, -⟩ := outcomeAt_inj hlast
  exact ⟨outline, houtline, rfl⟩

/-- What an item is rendered to, and the state it leaves, depend on the transform by coordinates only. -/
theorem Item.render_form_eq {text : TextProvider σ} {i : Item} {m n : Affine} {state final final' : σ}
    {d d' : Drawable} (h : i.render text m state = .ok d final)
    (h' : i.render text n state = .ok d' final') : d'.form = d.form ∧ final' = final := by
  obtain ⟨outline, houtline, rfl⟩ := exists_of_render h
  obtain ⟨outline', houtline', rfl⟩ := exists_of_render h'
  rw [houtline] at houtline'
  cases houtline'
  refine ⟨?_, rfl⟩
  simp only [Drawable.form, Path.form_transformed]

theorem Placed.mapM_render_form_eq {text : TextProvider σ} {ps qs : List Placed}
    (hitems : qs.map Placed.item = ps.map Placed.item) {state final final' : σ}
    {ds ds' : List Drawable} (h : ps.mapM (Placed.render text) state = .ok ds final)
    (h' : qs.mapM (Placed.render text) state = .ok ds' final') :
    ds'.map Drawable.form = ds.map Drawable.form ∧ final' = final := by
  induction ps generalizing qs state ds ds' with
  | nil =>
    rw [List.map_nil, List.map_eq_nil_iff] at hitems
    subst hitems
    cases h
    cases h'
    exact ⟨rfl, rfl⟩
  | cons p ps ih =>
    cases qs with
    | nil => cases hitems
    | cons q qs =>
      obtain ⟨hitem, hitems⟩ := List.cons.inj hitems
      obtain ⟨d, next, rest, hp, hps, rfl⟩ := exists_of_mapM_cons h
      obtain ⟨d', next', rest', hq, hqs, rfl⟩ := exists_of_mapM_cons h'
      rw [Placed.render, hitem] at hq
      obtain ⟨hform, rfl⟩ := Item.render_form_eq hp hq
      obtain ⟨hforms, hfinal⟩ := ih hitems hps hqs
      exact ⟨by rw [List.map_cons, List.map_cons, hform, hforms], hfinal⟩

namespace Scene

theorem flattened_eq_ok_iff {s : Scene} {text : TextProvider σ} {state : σ} {ds : List Drawable} :
    (s.flatten text state).result = .ok ds ↔
      s.flattened text state = .ok ds (s.flatten text state).state := by
  unfold flattened Flattening.outcome
  cases (s.flatten text state).result <;> simp [outcomeAt]

/-- A flattening succeeds if all placed items are rendered, one after the other. -/
theorem flatten_eq_ok_iff {s : Scene} {text : TextProvider σ} {state : σ} {ds : List Drawable} :
    (s.flatten text state).result = .ok ds ↔
      (s.placed Affine.identity).mapM (Placed.render text) state =
        .ok ds (s.flatten text state).state := by
  rw [flattened_eq_ok_iff, flattened_eq_render, render_eq_mapM]

/-- Scenes with the same items, flattened with the same provider, differ in coordinates only. -/
theorem flatten_form_eq {s t : Scene} (hitems : t.items = s.items) {text : TextProvider σ} {state : σ}
    {ds ds' : List Drawable} (h : (s.flatten text state).result = .ok ds)
    (h' : (t.flatten text state).result = .ok ds') :
    ds'.map Drawable.form = ds.map Drawable.form ∧
      (t.flatten text state).state = (s.flatten text state).state := by
  rw [flatten_eq_ok_iff] at h h'
  refine Placed.mapM_render_form_eq ?_ h h'
  rw [← items_eq_map_placed, ← items_eq_map_placed, hitems]

/-! ## Transforms -/

/-- A transform leaves the items of a scene as they are. -/
theorem items_transform (m : Affine) (s : Scene) (stamp : Nat) :
    ((s.transform m).run stamp).1.items = s.items := by
  cases hm : m == Affine.identity with
  | true => rw [run_transform_identity hm]
  | false =>
    cases s with
    | empty => rw [run_transform_empty]
    | item old i => rw [run_transform hm (s := item old i) nofun rfl]; rfl
    | union old a b => rw [run_transform hm (s := union old a b) nofun rfl]; rfl
    | transformed old c inner =>
      rw [run_transform_transformed hm]
      split <;> rfl

/-- A transform leaves the items of a scene as they are; and if the scene can be flattened with it and
without it, there are as many drawables, with the same tools and the same kinds of commands, and the
provider has got the same requests in the same order. -/
theorem flatten_transform_form (m : Affine) (s : Scene) (stamp : Nat) (text : TextProvider σ) (state : σ) :
    let moved := ((s.transform m).run stamp).1
    moved.items = s.items ∧
    ∀ ds ds', (s.flatten text state).result = .ok ds → (moved.flatten text state).result = .ok ds' →
      ds'.length = ds.length ∧ ds'.map Drawable.tool = ds.map Drawable.tool ∧
      (ds'.map fun d => d.path.form) = (ds.map fun d => d.path.form) ∧
      (moved.flatten text state).state = (s.flatten text state).state ∧
      ∃ requests : List TextRequest,
        (s.flatten text.recorded (state, [])).state.2 = requests.map .ask ∧
        (moved.flatten text.recorded (state, [])).state.2 = requests.map .ask := by
  intro moved
  have hitems : moved.items = s.items := items_transform m s stamp
  refine ⟨hitems, fun ds ds' h h' => ?_⟩
  obtain ⟨hforms, hstate⟩ := flatten_form_eq hitems h h'
  obtain ⟨requests, hresult, hlog⟩ := exists_flatten_recorded s text state
  obtain ⟨-, hresult', -⟩ := exists_flatten_recorded moved text state
  obtain ⟨-, hlogs⟩ := flatten_form_eq hitems (hresult.trans h) (hresult'.trans h')
  refine ⟨?_, ?_, ?_, hstate, requests, ?_, ?_⟩
  · simpa using congrArg List.length hforms
  · simpa [Function.comp_def] using congrArg (List.map Drawable.tool) hforms
  · simpa [Function.comp_def] using congrArg (List.map Drawable.path) hforms
  · rw [hlog]
  · rw [hlogs, hlog]

/-- A text above a line, where the line is moved. -/
def caption : Scene :=
  union 3 (item 0 (.text (.fill Color.black) "a" { family := "f", size := 1 }))
    (transformed 2 (Affine.translation 0 1)
      (item 1 (.shape (.stroke Color.red 1) (.line Point.origin ⟨1, 0⟩))))

/-- A provider with one glyph, a closed corner. -/
def cornerText : TextProvider Unit :=
  .ofFunction fun _ => .ok ⟨[.moveTo Point.origin, .draw (.line ⟨1, 0⟩), .draw (.line ⟨0, 1⟩), .close]⟩

theorem caption_grown :
    let moved := ((caption.transform (Affine.scale 2 2)).run 4).1
    moved.items = caption.items ∧
    ∃ ds ds', (caption.flatten cornerText ()).result = .ok ds ∧
      (moved.flatten cornerText ()).result = .ok ds' ∧
      ds'.length = ds.length ∧ ds'.map Drawable.tool = ds.map Drawable.tool ∧
      (ds'.map fun d => d.path.form) = (ds.map fun d => d.path.form) ∧
      (moved.flatten cornerText ()).state = (caption.flatten cornerText ()).state ∧
      ∃ requests : List TextRequest,
        (caption.flatten cornerText.recorded ((), [])).state.2 = requests.map .ask ∧
        (moved.flatten cornerText.recorded ((), [])).state.2 = requests.map .ask := by
  intro moved
  have hok : (caption.flatten cornerText ()).result.isOk := by decide +kernel
  have hok' : (moved.flatten cornerText ()).result.isOk := by decide +kernel
  obtain ⟨hitems, hforms⟩ := flatten_transform_form (Affine.scale 2 2) caption 4 cornerText ()
  cases h : (caption.flatten cornerText ()).result with
  | error e => rw [h] at hok; cases hok
  | ok ds =>
    cases h' : (moved.flatten cornerText ()).result with
    | error e => rw [h'] at hok'; cases hok'
    | ok ds' => exact ⟨hitems, ds, ds', rfl, rfl, hforms ds ds' h h'⟩

end Scene

end VectorScene
