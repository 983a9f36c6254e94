import VectorScene.Proofs.Scene.Accumulation
import VectorScene.Proofs.Scene.Conservation

/-!
# Places in a scene

A `Scene.Context` says where a scene stands in a larger one. Each place has its scenes to the left and
to the right and one transform, the composition of those above it. The places are all the nodes of a
scene, one place for each occurrence of a node that is shared (`mem_nodes_iff`).

A scene flattens to its drawables block by block: those of what lies to the left of a place, those of
the scene in that place, as it is rendered under the transform there, and those of what lies to the
right (`exists_block`). The drawables have the tools of the items in pre-order (`flatten_tools`).
-/

namespace VectorScene

variable {σ : Type}

namespace Scene

/-! ## Nodes -/

/-- The item of a node that is painted. -/
def item? : Scene → Option Item
  | item _ i => some i
  | _ => none

/-- All nodes in pre-order: each before those below it, and the left operand of a union before the
right one. A node that is shared comes once for each occurrence. -/
def nodes : Scene → List Scene
  | empty => [empty]
  | item stamp i => [item stamp i]
  | union stamp a b => union stamp a b :: (a.nodes ++ b.nodes)
  | transformed stamp m s => transformed stamp m s :: s.nodes

theorem self_mem_nodes (s : Scene) : s ∈ s.nodes := by
  cases s <;> exact List.mem_cons_self

theorem filterMap_item?_nodes (s : Scene) : s.nodes.filterMap item? = s.items := by
  induction s with
  | empty => rfl
  | item _ i => rfl
  | union _ a b iha ihb =>
    rw [nodes, List.filterMap_cons_none rfl, List.filterMap_append, iha, ihb, items]
  | transformed _ m s ih => rw [nodes, List.filterMap_cons_none rfl, ih, items]

/-! ## Places -/

/-- Where a scene stands in a larger one, from the inside to the outside. -/
inductive Context where
  | top
  /-- On the left of `right`, in a union. -/
  | left (outer : Context) (stamp : Nat) (right : Scene)
  /-- On the right of `left`, in a union. -/
  | right (outer : Context) (stamp : Nat) (left : Scene)
  /-- Below a transform. -/
  | under (outer : Context) (stamp : Nat) (m : Affine)

namespace Context

/-- The scene that has `s` in this place. -/
def fill : Context → Scene → Scene
  | top, s => s
  | left c stamp b, s => c.fill (union stamp s b)
  | right c stamp a, s => c.fill (union stamp a s)
  | under c stamp m, s => c.fill (transformed stamp m s)

/-- The scenes to the left of the place, from left to right. -/
def before : Context → List Scene
  | top => []
  | left c _ _ => c.before
  | right c _ a => c.before ++ [a]
  | under c _ _ => c.before

/-- The composition of the transforms above the place. -/
def transform : Context → Affine
  | top => Affine.identity
  | left c _ _ => c.transform
  | right c _ _ => c.transform
  | under c _ m => Affine.compose c.transform m

/-- The items to the left of the place, each with its transform. -/
def placedBefore : Context → List Placed
  | top => []
  | left c _ _ => c.placedBefore
  | right c _ a => c.placedBefore ++ a.placed c.transform
  | under c _ _ => c.placedBefore

/-- The items to the right of the place, each with its transform. -/
def placedAfter : Context → List Placed
  | top => []
  | left c _ b => b.placed c.transform ++ c.placedAfter
  | right c _ _ => c.placedAfter
  | under c _ _ => c.placedAfter

/-- The items of a scene are those to the left of a place, those in it and those to the right. -/
theorem placed_fill (c : Context) (s : Scene) :
    (c.fill s).placed Affine.identity = c.placedBefore ++ s.placed c.transform ++ c.placedAfter := by
  induction c generalizing s with
  | top => rw [fill, placedBefore, placedAfter, transform, List.nil_append, List.append_nil]
  | left c stamp b ih =>
    simp only [fill, ih, placed, placedBefore, placedAfter, transform, List.append_assoc]
  | right c stamp a ih =>
    simp only [fill, ih, placed, placedBefore, placedAfter, transform, List.append_assoc]
  | under c stamp m ih => simp only [fill, ih, placed, placedBefore, placedAfter, transform]

theorem map_item_placedBefore (c : Context) :
    c.placedBefore.map Placed.item = c.before.flatMap items := by
  induction c with
  | top => rfl
  | left c stamp b ih => exact ih
  | right c stamp a ih =>
    rw [placedBefore, before, List.map_append, ih, ← items_eq_map_placed, List.flatMap_append,
      List.flatMap_singleton]
  | under c stamp m ih => exact ih

/-- The nodes of a part of a scene are nodes of the whole. -/
theorem nodes_subset_fill (c : Context) (s : Scene) : s.nodes ⊆ (c.fill s).nodes := by
  induction c generalizing s with
  | top => exact List.Subset.refl _
  | left c stamp b ih =>
    refine List.Subset.trans ?_ (ih (union stamp s b))
    exact List.subset_cons_of_subset _ (List.subset_append_left _ _)
  | right c stamp a ih =>
    refine List.Subset.trans ?_ (ih (union stamp a s))
    exact List.subset_cons_of_subset _ (List.subset_append_right _ _)
  | under c stamp m ih =>
    exact List.Subset.trans (List.subset_cons_self _ _) (ih (transformed stamp m s))

end Context

/-- A node of a scene that stands in a place of a larger one has a place in that one too. -/
theorem exists_fill_of_mem_nodes {s t : Scene} (h : t ∈ s.nodes) (c : Context) :
    ∃ c' : Context, c'.fill t = c.fill s := by
  induction s generalizing c with
  | empty => exact ⟨c, by rw [List.mem_singleton.mp h]⟩
  | item stamp i => exact ⟨c, by rw [List.mem_singleton.mp h]⟩
  | union stamp a b iha ihb =>
    rcases List.mem_cons.mp h with rfl | h
    · exact ⟨c, rfl⟩
    · rcases List.mem_append.mp h with h | h
      · exact iha h (c.left stamp b)
      · exact ihb h (c.right stamp a)
  | transformed stamp m s ih =>
    rcases List.mem_cons.mp h with rfl | h
    · exact ⟨c, rfl⟩
    · exact ih h (c.under stamp m)

/-- The nodes of a scene are what stands in its places. -/
theorem mem_nodes_iff {s t : Scene} : t ∈ s.nodes ↔ ∃ c : Context, c.fill t = s := by
  constructor
  · intro h
    exact exists_fill_of_mem_nodes h .top
  · rintro ⟨c, rfl⟩
    exact c.nodes_subset_fill t t.self_mem_nodes

end Scene

/-! ## Blocks -/

/-- Placed items are rendered to drawables with their tools. -/
theorem Placed.map_tool_of_mapM {text : TextProvider σ} {ps : List Placed} {state final : σ}
    {ds : List Drawable} (h : ps.mapM (Placed.render text) state = .ok ds final) :
    ds.map Drawable.tool = (ps.map Placed.item).map Item.tool := by
  induction ps generalizing state ds with
  | nil =>
    cases h
    rfl
  | cons p ps ih =>
    obtain ⟨d, next, rest, hp, hps, rfl⟩ := exists_of_mapM_cons h
    obtain ⟨outline, -, rfl⟩ := Item.exists_of_render hp
    simp only [List.map_cons, ih hps]

namespace Scene

variable {text : TextProvider σ} {state : σ} {ds : List Drawable}

/-- The drawables of a scene that stands in a place follow on those of what lies to the left of it. -/
theorem exists_block {c : Context} {s : Scene}
    (h : ((c.fill s).flatten text state).result = .ok ds) :
    ∃ before block after entered left, ds = before ++ block ++ after ∧
      c.placedBefore.mapM (Placed.render text) state = .ok before entered ∧
      s.render text c.transform entered = .ok block left ∧
      c.placedAfter.mapM (Placed.render text) left =
        .ok after ((c.fill s).flatten text state).state := by
  rw [flatten_eq_ok_iff, c.placed_fill] at h
  obtain ⟨upTo, after, left, hupTo, hafter, rfl⟩ := exists_of_mapM_append h
  obtain ⟨before, block, entered, hbefore, hblock, rfl⟩ := exists_of_mapM_append hupTo
  exact ⟨before, block, after, entered, left, rfl, hbefore, by rwa [render_eq_mapM], hafter⟩

theorem map_tool_of_render {s : Scene} {m : Affine} {final : σ}
    (h : s.render text m state = .ok ds final) : ds.map Drawable.tool = s.items.map Item.tool := by
  rw [render_eq_mapM] at h
  rw [Placed.map_tool_of_mapM h, ← items_eq_map_placed]

/-- There are as many items in scenes as each of them has, counted one after the other. -/
theorem length_flatMap_items (scenes : List Scene) :
    (scenes.flatMap items).length = (scenes.map itemCount).foldr (· + ·) 0 := by
  induction scenes with
  | nil => rfl
  | cons s scenes ih =>
    rw [List.flatMap_cons, List.length_append, ih, List.map_cons, List.foldr_cons, itemCount_eq]

/-- If a scene can be flattened, there are as many drawables as it has items, with the tools of the
items in pre-order. The drawables of each part of it, at each place where the part stands, are one
block, which starts after the drawables of all that lies to the left of that place and is what the part
is rendered to under the transform there. -/
theorem flatten_tools {s : Scene} (h : (s.flatten text state).result = .ok ds) :
    ds.length = s.itemCount ∧
    ds.map Drawable.tool = (s.nodes.filterMap item?).map Item.tool ∧
    (∀ t, t ∈ s.nodes ↔ ∃ c : Context, c.fill t = s) ∧
    ∀ (c : Context) (t : Scene), c.fill t = s → ∃ before block after, ds = before ++ block ++ after ∧
      before.length = (c.before.map itemCount).foldr (· + ·) 0 ∧
      before.map Drawable.tool = (c.before.flatMap items).map Item.tool ∧
      block.length = t.itemCount ∧
      block.map Drawable.tool = t.items.map Item.tool ∧
      ∃ entered left, t.render text c.transform entered = .ok block left := by
  have htools : ds.map Drawable.tool = s.items.map Item.tool := by
    rw [Placed.map_tool_of_mapM (flatten_eq_ok_iff.mp h), ← items_eq_map_placed]
  refine ⟨?_, ?_, fun t => mem_nodes_iff, ?_⟩
  · rw [itemCount_eq]
    simpa using congrArg List.length htools
  · rw [htools, filterMap_item?_nodes]
  · rintro c t rfl
    obtain ⟨before, block, after, entered, left, hds, hbefore, hblock, -⟩ := exists_block h
    have hleft : before.map Drawable.tool = (c.before.flatMap items).map Item.tool := by
      rw [Placed.map_tool_of_mapM hbefore, c.map_item_placedBefore]
    have hpart : block.map Drawable.tool = t.items.map Item.tool := map_tool_of_render hblock
    refine ⟨before, block, after, hds, ?_, hleft, ?_, hpart, entered, left, hblock⟩
    · rw [← length_flatMap_items]
      simpa using congrArg List.length hleft
    · rw [itemCount_eq]
      simpa using congrArg List.length hpart

/-- Two bars that share their one item, and the moved one of them once more. -/
def threeBars : Scene := union 3 bars (transformed 1 (Affine.translation 0 1) bar)

theorem flatten_threeBars :
    ∃ ds, (threeBars.flatten (.unavailable : TextProvider Unit) ()).result = .ok ds ∧
      threeBars.itemCount = 3 ∧ ds.length = threeBars.itemCount ∧
      ds.map Drawable.tool = (threeBars.nodes.filterMap item?).map Item.tool ∧
      Context.fill (.right .top 3 bars) (transformed 1 (Affine.translation 0 1) bar) = threeBars ∧
      ∃ before block after, ds = before ++ block ++ after ∧ before.length = bars.itemCount ∧
        block.length = 1 := by
  have hok : (threeBars.flatten (.unavailable : TextProvider Unit) ()).result.isOk := by
    decide +kernel
  obtain ⟨ds, h⟩ := exists_of_isOk hok
  obtain ⟨hlength, htools, -, hblocks⟩ := flatten_tools h
  obtain ⟨before, block, after, hds, hbefore, -, hblock, -⟩ :=
    hblocks (.right .top 3 bars) (transformed 1 (Affine.translation 0 1) bar) rfl
  exact ⟨ds, h, by decide +kernel, hlength, htools, rfl, before, block, after, hds,
    hbefore.trans (by decide +kernel), hblock.trans (by decide +kernel)⟩

end Scene

end VectorScene
