import VectorScene.Proofs.Scene.Flatten
import VectorScene.Proofs.Scene.Normal

/-!
# Unions of lists of scenes

`Scene.ofList` joins scenes from left to right and leaves out the empty ones. Two statements say what
comes of it:

* `run_ofList`: the tree is the left-nested union of the members, the scenes that are not empty, and
  it has no new node unless there are two of them;
* `placed_ofList`: its items are those of the scenes, in order, each under the transforms it had.

Everything that is taken from the items in order can so be taken from one scene after the other:
flattening (`render_ofList`, for any text provider, and `drawablesBy_ofList`, for one that answers by
a function) and counting (`itemCount_ofList`).
-/

namespace VectorScene

variable {σ : Type}

namespace Scene

/-! ## The tree -/

/-- The members of a union: the scenes that are not empty. -/
def members (scenes : List Scene) : List Scene := scenes.filter fun s => !s.isEmpty

/-- A scene with others joined to it from the right, one after the other, in nodes with the stamps
from `stamp` on. -/
def nest : Scene → List Scene → Nat → Scene
  | acc, [], _ => acc
  | acc, s :: rest, stamp => nest (union stamp acc s) rest (stamp + 1)

/-- The left-nested union of scenes, in nodes with the stamps from `stamp` on. -/
def leftNested : List Scene → Nat → Scene
  | [], _ => empty
  | s :: rest, stamp => nest s rest stamp

theorem members_empty (scenes : List Scene) : members (empty :: scenes) = members scenes := rfl

theorem members_cons {s : Scene} (hs : s ≠ empty) (scenes : List Scene) :
    members (s :: scenes) = s :: members scenes := by
  cases s with
  | empty => exact absurd rfl hs
  | _ => rfl

/-- Joining scenes to one that is not empty. -/
theorem run_foldlM_join {acc : Scene} (hacc : acc ≠ empty) (scenes : List Scene) (stamp : Nat) :
    (scenes.foldlM join acc : Build Scene).run stamp =
      (nest acc (members scenes) stamp, stamp + (members scenes).length) := by
  induction scenes generalizing acc stamp with
  | nil => rfl
  | cons s scenes ih =>
    have hstep : ((s :: scenes).foldlM join acc : Build Scene).run stamp =
        (scenes.foldlM join ((join acc s).run stamp).1 : Build Scene).run
          ((join acc s).run stamp).2 := rfl
    rw [hstep, run_join, if_neg hacc]
    by_cases hs : s = empty
    · rw [if_pos hs, hs, members_empty]
      exact ih hacc stamp
    · have hunion : union stamp acc s ≠ empty := nofun
      have hstamp : stamp + 1 + (members scenes).length = stamp + (s :: members scenes).length := by
        rw [List.length_cons]; omega
      rw [if_neg hs, members_cons hs, nest, ← hstamp]
      exact ih hunion (stamp + 1)

/-- The union of a list, and the next stamp: each member but the first takes one. -/
theorem run_ofList (scenes : List Scene) (stamp : Nat) :
    (ofList scenes).run stamp =
      (leftNested (members scenes) stamp, stamp + ((members scenes).length - 1)) := by
  induction scenes with
  | nil => rfl
  | cons s scenes ih =>
    have hstep : (ofList (s :: scenes)).run stamp = (scenes.foldlM join s : Build Scene).run stamp := rfl
    by_cases hs : s = empty
    · rw [hs, members_empty, ← ih]
      rfl
    · rw [hstep, run_foldlM_join hs, members_cons hs]
      rfl

/-- A union of two scenes is the union of the list of the two. -/
theorem ofList_pair (a b : Scene) : ofList [a, b] = join a b := by
  have hempty : join empty a = pure a := rfl
  rw [ofList, List.foldlM_cons, hempty, pure_bind, List.foldlM_cons]
  exact bind_pure (join a b)

/-! ## The items -/

theorem placed_nest (acc : Scene) (scenes : List Scene) (stamp : Nat) (m : Affine) :
    (nest acc scenes stamp).placed m = acc.placed m ++ scenes.flatMap fun s => s.placed m := by
  induction scenes generalizing acc stamp with
  | nil => rw [nest, List.flatMap_nil, List.append_nil]
  | cons s scenes ih => rw [nest, ih, placed, List.flatMap_cons, List.append_assoc]

theorem placed_leftNested (scenes : List Scene) (stamp : Nat) (m : Affine) :
    (leftNested scenes stamp).placed m = scenes.flatMap fun s => s.placed m := by
  cases scenes with
  | nil => rfl
  | cons s scenes => rw [leftNested, placed_nest, List.flatMap_cons]

theorem flatMap_placed_members (scenes : List Scene) (m : Affine) :
    ((members scenes).flatMap fun s => s.placed m) = scenes.flatMap fun s => s.placed m := by
  induction scenes with
  | nil => rfl
  | cons s scenes ih =>
    by_cases hs : s = empty
    · rw [hs, members_empty, ih, List.flatMap_cons]; rfl
    · rw [members_cons hs, List.flatMap_cons, List.flatMap_cons, ih]

/-- The items of the union of a list are those of its scenes, in order. -/
theorem placed_ofList (scenes : List Scene) (stamp : Nat) (m : Affine) :
    ((ofList scenes).run stamp).1.placed m = scenes.flatMap fun s => s.placed m := by
  rw [run_ofList, placed_leftNested, flatMap_placed_members]

theorem placed_join (a b : Scene) (stamp : Nat) (m : Affine) :
    ((join a b).run stamp).1.placed m = a.placed m ++ b.placed m := by
  rw [← ofList_pair, placed_ofList, List.flatMap_cons, List.flatMap_singleton]

/-! ## Flattening and counting -/

theorem render_ofList (text : TextProvider σ) (scenes : List Scene) (stamp : Nat) (m : Affine) :
    ((ofList scenes).run stamp).1.render text m =
      List.flatten <$> scenes.mapM fun s => s.render text m := by
  simp only [render_eq_mapM, placed_ofList, mapM_flatMap]

theorem drawablesBy_ofList (answer : TextRequest → Except String Path) (scenes : List Scene)
    (stamp : Nat) (m : Affine) :
    ((ofList scenes).run stamp).1.drawablesBy answer m =
      List.flatten <$> scenes.mapM fun s => s.drawablesBy answer m := by
  simp only [drawablesBy_eq_mapM, placed_ofList, mapM_flatMap]

/-- A scene has as many items whatever the transform above it. -/
theorem items_eq_map_placed (s : Scene) (m : Affine) : s.items = (s.placed m).map Placed.item := by
  induction s generalizing m with
  | empty => rfl
  | item _ i => rfl
  | union _ a b iha ihb => rw [items, placed, List.map_append, ← iha, ← ihb]
  | transformed _ inner s ih => rw [items, placed, ← ih]

theorem itemCount_ofList (scenes : List Scene) (stamp : Nat) :
    ((ofList scenes).run stamp).1.itemCount = (scenes.map itemCount).foldr (· + ·) 0 := by
  have hcount : ∀ s : Scene, s.itemCount = (s.placed Affine.identity).length := by
    intro s
    rw [itemCount_eq, s.items_eq_map_placed Affine.identity, List.length_map]
  rw [hcount, placed_ofList]
  induction scenes with
  | nil => rfl
  | cons s scenes ih =>
    rw [List.flatMap_cons, List.length_append, ih, List.map_cons, List.foldr_cons, hcount s]

/-- A flattening as a step on the state of the text provider. -/
def flattened (text : TextProvider σ) (s : Scene) : EvalM σ (List Drawable) :=
  fun state => (s.flatten text state).outcome

theorem flattened_eq_render (text : TextProvider σ) (s : Scene) :
    s.flattened text = s.render text Affine.identity :=
  funext fun state => outcome_flatten text s state

theorem flattened_ofList (text : TextProvider σ) (scenes : List Scene) (stamp : Nat) :
    ((ofList scenes).run stamp).1.flattened text =
      List.flatten <$> scenes.mapM (flattened text) := by
  simp only [funext (flattened_eq_render text), flattened_eq_render, render_ofList]

/-- Joining is associative but for the tree: the items are the same in the same order. -/
theorem placed_join_assoc (a b c : Scene) (stamp stamp' : Nat) (m : Affine) :
    ((do join (← join a b) c : Build Scene).run stamp).1.placed m =
      ((do join a (← join b c) : Build Scene).run stamp').1.placed m := by
  have hleft : (do join (← join a b) c : Build Scene).run stamp =
      (join ((join a b).run stamp).1 c).run ((join a b).run stamp).2 := rfl
  have hright : (do join a (← join b c) : Build Scene).run stamp' =
      (join a ((join b c).run stamp').1).run ((join b c).run stamp').2 := rfl
  simp only [hleft, hright, placed_join, List.append_assoc]

theorem flattened_congr (text : TextProvider σ) {s t : Scene}
    (h : s.placed Affine.identity = t.placed Affine.identity) : s.flattened text = t.flattened text := by
  rw [flattened_eq_render, flattened_eq_render, render_eq_mapM, render_eq_mapM, h]

variable (answer : TextRequest → Except String Path)

/-- What a scene flattens to with a text provider that answers by a function. -/
def flattenBy (s : Scene) : Except EvalError (List Drawable) :=
  (s.flatten (.ofFunction answer) ()).result

theorem flattenBy_eq_drawablesBy (s : Scene) :
    s.flattenBy answer = s.drawablesBy answer Affine.identity := by
  rw [flattenBy, TextProvider.ofFunction_eq_noting]
  exact (outcomeAt_inj (outcome_flatten_noting answer _ s ())).2

theorem flattenBy_ofList (scenes : List Scene) (stamp : Nat) :
    ((ofList scenes).run stamp).1.flattenBy answer =
      (scenes.mapM (flattenBy answer)).map List.flatten := by
  simp only [funext (flattenBy_eq_drawablesBy answer), flattenBy_eq_drawablesBy, drawablesBy_ofList]
  rfl

/-- The union of a list flattens to what its scenes flatten to, in order, or fails as the first of
them that fails; and with any text provider, whatever its state, it is flattened as its scenes are
one after the other. It is the left-nested union of the scenes that are not empty, and is the same
node as the only one of them if there is only one. A union of two scenes is one of a list, so the
empty scene is its unit and it can be nested in either way. -/
theorem flatten_ofList (scenes : List Scene) (stamp : Nat) (text : TextProvider σ) (state : σ) :
    let whole := ((ofList scenes).run stamp).1
    (∀ ds, whole.flattenBy answer = .ok ds ↔
      ∃ dss : List (List Drawable), scenes.map (flattenBy answer) = dss.map .ok ∧ ds = dss.flatten) ∧
    (∀ e, whole.flattenBy answer = .error e ↔ ∃ before s after, scenes = before ++ s :: after ∧
      (∀ t ∈ before, ∃ ds, t.flattenBy answer = .ok ds) ∧ s.flattenBy answer = .error e) ∧
    whole.flattened text state = (List.flatten <$> scenes.mapM (flattened text)) state ∧
    whole.itemCount = (scenes.map itemCount).foldr (· + ·) 0 ∧
    (match members scenes with
      | [] => whole = empty
      | [s] => whole = s ∧ whole.sameNode s
      | parts => whole = leftNested parts stamp) ∧
    (∀ a b, join a b = ofList [a, b]) ∧
    (∀ a n, (join empty a).run n = (a, n) ∧ (join a empty).run n = (a, n)) ∧
    ∀ a b c n n', ((do join (← join a b) c : Build Scene).run n).1.flattened text =
      ((do join a (← join b c) : Build Scene).run n').1.flattened text := by
  intro whole
  have hflat : whole.flattenBy answer = (scenes.mapM (flattenBy answer)).map List.flatten :=
    flattenBy_ofList answer scenes stamp
  have hwhole : whole = leftNested (members scenes) stamp := congrArg Prod.fst (run_ofList scenes stamp)
  refine ⟨fun ds => ?_, fun e => ?_, congrFun (flattened_ofList text scenes stamp) state,
    itemCount_ofList scenes stamp, ?_, fun a b => (ofList_pair a b).symm, fun a n => ⟨rfl, ?_⟩,
    fun a b c n n' => flattened_congr text (placed_join_assoc a b c n n' Affine.identity)⟩
  · rw [hflat]
    simp only [← mapM_eq_ok_iff]
    cases scenes.mapM (flattenBy answer) <;> simp [Except.map, eq_comm]
  · rw [hflat, ← mapM_eq_error_iff]
    cases scenes.mapM (flattenBy answer) <;> simp [Except.map]
  · split
    · rename_i h
      rw [hwhole, h]; rfl
    · rename_i s h
      have hs : whole = s := by rw [hwhole, h]; rfl
      exact ⟨hs, by rw [hs, sameNode, beq_self_eq_true]⟩
    · exact hwhole
  · cases a <;> rfl

end Scene

end VectorScene
