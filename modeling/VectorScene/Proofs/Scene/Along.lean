import VectorScene.Proofs.Primitive
import VectorScene.Proofs.Scene.Union
import VectorScene.Proofs.Surface.Drawing

/-!
# What a text provider is asked

A provider that records its requests sees those of the items of a scene, from left to right, up to an
item that fails (`Scene.exists_asked`). A request may give a path along which the text is laid out, which
is that of a primitive; so it is finite unless the primitive is an arc whose points overflow
(`Scene.asked_along`). Such an arc is refused by a pen, but not here: `hugeCircle` is one, near the
largest numbers.
-/

namespace VectorScene

variable {σ : Type}

/-! ## Recorded requests -/

section

variable (text : TextProvider σ)

theorem ask_recorded (request : TextRequest) (s : σ) (log : List Effect) :
    EvalM.ask text.recorded request (s, log) =
      onFirst (EvalM.ask text request) (s, log ++ [.ask request]) := by
  obtain ⟨s', answer, h⟩ := exists_outcomeAt (text.outlines request) s
  have hask : EvalM.ask text request s = outcomeAt s' (answer.mapError .text) :=
    adaptExcept_outcomeAt h EvalError.text
  rw [onFirst_apply hask]
  exact adaptExcept_outcomeAt (recording_apply (.ask request) h log) EvalError.text

namespace Item

/-- What a recording provider records of an item. -/
def effects (i : Item) : List Effect := i.request?.toList.map .ask

theorem outline_recorded (i : Item) (s : σ) (log : List Effect) :
    i.outline text.recorded (s, log) = onFirst (i.outline text) (s, log ++ i.effects) := by
  cases i with
  | shape _ primitive =>
    rw [outline, outline, effects, request?, Option.toList_none, List.map_nil, List.append_nil]
    cases primitive.toPath <;> rfl
  | text _ str options => exact ask_recorded text _ s log
  | textAlong _ str options primitive =>
    rw [outline, outline, effects, request?]
    cases primitive.toPath with
    | error e =>
      rw [Option.toList_none, List.map_nil, List.append_nil]
      rfl
    | ok along => exact ask_recorded text _ s log

theorem render_recorded (i : Item) (m : Affine) (s : σ) (log : List Effect) :
    i.render text.recorded m (s, log) = onFirst (i.render text m) (s, log ++ i.effects) := by
  refine onFirst_bind (i.outline_recorded text s log) fun outline s => ?_
  dsimp only
  cases (outline.transformed m).check .transformed <;> rfl

/-- A path to lay text along is that of the item's primitive. -/
theorem exists_of_effect {i : Item} {request : TextRequest} {along : Path}
    (h : .ask request ∈ i.effects) (halong : request.along = some along) :
    ∃ tool str options primitive, i = textAlong tool str options primitive ∧
      primitive.toPath = .ok along := by
  obtain ⟨request', hrequest, hask⟩ := List.mem_map.mp h
  cases hask
  rw [Option.mem_toList] at hrequest
  cases i with
  | shape tool primitive => cases hrequest
  | text tool str options =>
    cases hrequest
    cases halong
  | textAlong tool str options primitive =>
    refine ⟨tool, str, options, primitive, rfl, ?_⟩
    rw [request?] at hrequest
    cases hpath : primitive.toPath with
    | error e =>
      rw [hpath] at hrequest
      cases hrequest
    | ok p =>
      rw [hpath] at hrequest
      cases hrequest
      cases halong
      rfl

end Item

/-- A recording provider sees the requests of items from left to right, and all of them if no item
fails. -/
theorem Placed.mapM_render_recorded (ps : List Placed) (s : σ) (log : List Effect) :
    ∃ asked s' result, asked <+: ps.map item ∧ (result.isOk → asked = ps.map item) ∧
      ps.mapM (render text) s = outcomeAt s' result ∧
      ps.mapM (render text.recorded) (s, log) =
        outcomeAt (s', log ++ asked.flatMap Item.effects) result := by
  induction ps generalizing s log with
  | nil =>
    refine ⟨[], s, .ok [], List.nil_prefix, fun _ => rfl, rfl, ?_⟩
    rw [List.flatMap_nil, List.append_nil]
    rfl
  | cons p ps ih =>
    obtain ⟨s₁, first, hp⟩ := exists_outcomeAt (p.render text) s
    have hrecorded : p.render text.recorded (s, log) = outcomeAt (s₁, log ++ p.item.effects) first :=
      (p.item.render_recorded text p.transform s log).trans (onFirst_apply hp _)
    simp only [List.mapM_cons, bind_apply _ hp, bind_apply _ hrecorded]
    cases first with
    | error e =>
      refine ⟨[p.item], s₁, .error e, List.prefix_append _ _, nofun, rfl, ?_⟩
      rw [List.flatMap_singleton]
      rfl
    | ok d =>
      obtain ⟨asked, s₂, rest, hprefix, hall, hps, hrest⟩ := ih s₁ (log ++ p.item.effects)
      refine ⟨p.item :: asked, s₂, rest.map (d :: ·), (List.prefix_cons_inj _).mpr hprefix, ?_, ?_, ?_⟩
      · intro hok
        cases rest with
        | error e => cases hok
        | ok ds => rw [List.map_cons, hall rfl]
      · simp only [bind_apply _ hps]
        cases rest <;> rfl
      · rw [List.flatMap_cons, ← List.append_assoc]
        simp only [bind_apply _ hrest]
        cases rest <;> rfl

namespace Scene

/-- A recording provider sees the requests of the items of a scene from left to right, and all of them
if the scene can be flattened. -/
theorem exists_asked (s : Scene) (state : σ) :
    ∃ asked, asked <+: s.items ∧ ((s.flatten text state).result.isOk → asked = s.items) ∧
      (s.flatten text.recorded (state, [])).state.2 = asked.flatMap Item.effects := by
  obtain ⟨asked, final, result, hprefix, hall, hrender, hrecorded⟩ :=
    Placed.mapM_render_recorded text (s.placed Affine.identity) state []
  rw [← render_eq_mapM, ← outcome_flatten] at hrender hrecorded
  obtain ⟨-, hresult⟩ := outcomeAt_inj hrender
  obtain ⟨hstate, -⟩ := outcomeAt_inj hrecorded
  rw [← items_eq_map_placed] at hprefix hall
  rw [← hresult] at hall
  refine ⟨asked, hprefix, hall, ?_⟩
  rw [hstate, List.nil_append]

end Scene

end

/-- The path of a primitive is finite, unless the primitive is an arc whose points overflow. Such an arc
passes the check of its numbers and has a path, while a pen refuses it. So a text provider, which is
asked for the items of a scene in order and up to one that fails, is given a path to lay text along that
is not finite only for such an arc. -/
theorem Scene.asked_along (s : Scene) (text : TextProvider σ) (state : σ) :
    let log := (s.flatten text.recorded (state, [])).state.2
    (∀ primitive p, Primitive.toPath primitive = .ok p →
      (p.Finite ↔ ∀ a, primitive = .arc a → a.Finite)) ∧
    (∀ a : Arc, a.check = .ok () → ¬ a.Finite →
      (∃ p, (Primitive.arc a).toPath = .ok p ∧ ¬ p.Finite) ∧
        ∀ pen, Pen.arcTo a pen = .error (.nonFinite .arcTo) pen) ∧
    ∃ asked, asked <+: s.items ∧ ((s.flatten text state).result.isOk → asked = s.items) ∧
      log = asked.flatMap Item.effects ∧
      ∀ request along, .ask request ∈ log → request.along = some along →
        ∃ tool str options primitive, .textAlong tool str options primitive ∈ asked ∧
          primitive.toPath = .ok along ∧ (along.Finite ↔ ∀ a, primitive = .arc a → a.Finite) := by
  intro log
  refine ⟨fun primitive p => Primitive.finite_iff, fun a hcheck ha => ⟨?_, ?_⟩, ?_⟩
  · have hpath := Primitive.toPath_arc hcheck
    exact ⟨_, hpath, fun hfinite => ha ((Primitive.finite_iff hpath).mp hfinite a rfl)⟩
  · exact Pen.arcTo_of_overflow hcheck ha
  · obtain ⟨asked, hprefix, hall, hlog⟩ := s.exists_asked text state
    refine ⟨asked, hprefix, hall, hlog, fun request along hrequest halong => ?_⟩
    rw [show log = asked.flatMap Item.effects from hlog] at hrequest
    obtain ⟨i, hi, heffect⟩ := List.mem_flatMap.mp hrequest
    obtain ⟨tool, str, options, primitive, rfl, hpath⟩ := Item.exists_of_effect heffect halong
    exact ⟨tool, str, options, primitive, hi, hpath, Primitive.finite_iff hpath⟩

/-! ## An arc that overflows -/

/-- A circle whose numbers are finite and whose rightmost point is not. -/
def hugeCircle : Arc := .circle ⟨3e38, 0⟩ 3e38

/-- The path of the circle. -/
def hugePath : Path := ⟨.moveTo hugeCircle.first :: hugeCircle.curves.map .draw⟩

def hugeText : Item :=
  .textAlong (.fill .black) "a" { family := "f", size := 1 } (.arc hugeCircle)

/-- A provider that has no glyphs to show, whatever it is asked for. -/
def blankText : TextProvider Unit := .ofFunction fun _ => .ok .empty

theorem blankText_hugeText :
    (Primitive.arc hugeCircle).toPath = .ok hugePath ∧ ¬ hugePath.Finite ∧
      Pen.arcTo hugeCircle {} = .error (.nonFinite .arcTo) {} ∧
      .ask { text := "a", options := { family := "f", size := 1 }, along := some hugePath } ∈
        ((Scene.item 0 hugeText).flatten blankText.recorded ((), [])).state.2 := by
  have hcheck : hugeCircle.check = .ok () := by
    rw [Arc.check, if_pos (by decide +kernel), if_neg (by decide +kernel)]
  have hpath : (Primitive.arc hugeCircle).toPath = .ok hugePath := Primitive.toPath_arc hcheck
  have hoverflow : ¬ hugePath.Finite := by decide +kernel
  have hcircle : ¬ hugeCircle.Finite := by
    intro hfinite
    apply hoverflow
    rw [Primitive.finite_iff hpath]
    intro a ha
    exact Primitive.arc.inj ha ▸ hfinite
  have hok : ((Scene.item 0 hugeText).flatten blankText ()).result.isOk := by decide +kernel
  obtain ⟨asked, -, hall, hlog⟩ := (Scene.item 0 hugeText).exists_asked blankText ()
  refine ⟨hpath, hoverflow, Pen.arcTo_of_overflow hcheck hcircle {}, ?_⟩
  rw [hlog, hall hok, Scene.items, List.flatMap_singleton, Item.effects, hugeText, Item.request?, hpath]
  exact List.mem_cons_self

end VectorScene
