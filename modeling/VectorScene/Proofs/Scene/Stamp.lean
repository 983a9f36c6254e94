import VectorScene.Proofs.Scene.Workbench

/-!
# Stamps tell nodes apart

The nodes that are ever made can be listed in the order in which they are made, and a stamp is the place of
a node in that list (`Scene.ListedIn`). Making a scene only adds to the list (`Scene.Adds`), and so does
every operation on a workbench (`Workbench.Listed.perform`). So two scenes of one run that bear the same
stamp are the same scene, down to the last node below them (`Scene.ListedIn.eq_of_sameNode`).
-/

namespace VectorScene

namespace Scene

/-- Whether each node of the scene is in the place of the list that its stamp says. -/
def ListedIn (nodes : List Scene) : Scene → Prop
  | empty => True
  | item stamp i => nodes[stamp]? = some (item stamp i)
  | union stamp a b =>
    nodes[stamp]? = some (union stamp a b) ∧ a.ListedIn nodes ∧ b.ListedIn nodes
  | transformed stamp m s => nodes[stamp]? = some (transformed stamp m s) ∧ s.ListedIn nodes

namespace ListedIn

variable {nodes : List Scene} {s t : Scene}

/-- A node keeps its place when others are added. -/
theorem append (h : s.ListedIn nodes) (more : List Scene) : s.ListedIn (nodes ++ more) := by
  have hkeep : ∀ {k : Nat} {node : Scene}, nodes[k]? = some node → (nodes ++ more)[k]? = some node := by
    intro k node hk
    obtain ⟨hlt, -⟩ := List.getElem?_eq_some_iff.mp hk
    rw [List.getElem?_append_left hlt, hk]
  induction s with
  | empty => trivial
  | item _ i => exact hkeep h
  | union _ a b iha ihb => exact ⟨hkeep h.1, iha h.2.1, ihb h.2.2⟩
  | transformed _ m s ih => exact ⟨hkeep h.1, ih h.2⟩

theorem getElem?_of_stamp (h : s.ListedIn nodes) {k : Nat} (hk : s.stamp? = some k) :
    nodes[k]? = some s := by
  cases s with
  | empty => cases hk
  | item _ i => cases hk; exact h
  | union _ a b => cases hk; exact h.1
  | transformed _ m s => cases hk; exact h.1

/-- Only one scene bears a stamp. -/
theorem eq_of_sameNode (hs : s.ListedIn nodes) (ht : t.ListedIn nodes) (h : s.sameNode t) : s = t := by
  have hstamp : s.stamp? = t.stamp? := beq_iff_eq.mp h
  cases hk : s.stamp? with
  | some k =>
    rw [hk] at hstamp
    exact Option.some.inj ((hs.getElem?_of_stamp hk).symm.trans (ht.getElem?_of_stamp hstamp.symm))
  | none =>
    rw [hk] at hstamp
    cases s <;> cases hk
    cases t <;> cases hstamp
    rfl

theorem child (h : s.ListedIn nodes) : ∀ c ∈ s.children, c.ListedIn nodes := by
  cases s with
  | empty => nofun
  | item _ i => nofun
  | union _ a b => simpa [children] using h.2
  | transformed _ m s => simpa [children] using h.2

end ListedIn

/-! ## Making scenes -/

/-- Whether a scene that was made, with the next stamp, is listed if nodes are added for it. -/
def Adds (nodes : List Scene) (made : Scene × Nat) : Prop :=
  ∃ more, made.2 = (nodes ++ more).length ∧ made.1.ListedIn (nodes ++ more)

namespace Adds

variable {nodes : List Scene} {a b s : Scene}

/-- A scene that is listed needs no new node. -/
theorem of_listedIn (h : s.ListedIn nodes) : Adds nodes (s, nodes.length) :=
  ⟨[], by rw [List.append_nil], by rwa [List.append_nil]⟩

/-- A node that is made is added to the list. -/
theorem of_new {node : Scene} (h : node.ListedIn (nodes ++ [node])) :
    Adds nodes (node, nodes.length + 1) :=
  ⟨[node], by rw [List.length_append, List.length_singleton], h⟩

theorem getElem?_new (nodes : List Scene) (node : Scene) :
    (nodes ++ [node])[nodes.length]? = some node := List.getElem?_concat_length

theorem ofItem (nodes : List Scene) (i : Item) : Adds nodes ((Scene.ofItem i).run nodes.length) :=
  of_new (show ListedIn (nodes ++ [_]) (.item nodes.length i) from getElem?_new nodes _)

theorem join (ha : a.ListedIn nodes) (hb : b.ListedIn nodes) :
    Adds nodes ((Scene.join a b).run nodes.length) := by
  rw [run_join]
  split
  · exact of_listedIn hb
  · split
    · exact of_listedIn ha
    · exact of_new ⟨getElem?_new nodes _, ha.append _, hb.append _⟩

theorem transformed (hs : s.ListedIn nodes) (m : Affine) :
    Adds nodes (.transformed nodes.length m s, nodes.length + 1) :=
  of_new ⟨getElem?_new nodes _, hs.append _⟩

theorem transform (hs : s.ListedIn nodes) (m : Affine) :
    Adds nodes ((s.transform m).run nodes.length) := by
  cases hm : m == Affine.identity with
  | true =>
    rw [run_transform_identity hm]
    exact of_listedIn hs
  | false =>
    cases s with
    | empty =>
      rw [run_transform_empty]
      exact of_listedIn hs
    | item old i =>
      rw [run_transform hm (s := .item old i) nofun rfl]
      exact transformed hs m
    | union old a b =>
      rw [run_transform hm (s := .union old a b) nofun rfl]
      exact transformed hs m
    | transformed _ c inner =>
      rw [run_transform_transformed hm]
      split
      · exact of_listedIn hs.2
      · exact transformed hs.2 _

theorem foldlM_join {scenes : List Scene} (h : ∀ s ∈ scenes, s.ListedIn nodes)
    (ha : a.ListedIn nodes) :
    Adds nodes ((scenes.foldlM Scene.join a : Build Scene).run nodes.length) := by
  induction scenes generalizing a nodes with
  | nil => exact of_listedIn ha
  | cons s scenes ih =>
    obtain ⟨hs, h⟩ := List.forall_mem_cons.mp h
    obtain ⟨more, hstamp, hjoined⟩ := join ha hs
    obtain ⟨more', hstamp', hmade⟩ := ih (fun t ht => (h t ht).append more) hjoined
    rw [← hstamp] at hstamp' hmade
    exact ⟨more ++ more', by rwa [← List.append_assoc], by rwa [← List.append_assoc]⟩

theorem ofList {scenes : List Scene} (h : ∀ s ∈ scenes, s.ListedIn nodes) :
    Adds nodes ((Scene.ofList scenes).run nodes.length) :=
  foldlM_join h (show ListedIn nodes .empty from trivial)

end Adds

end Scene

namespace Workbench

/-- Whether the list is that of all nodes that were made for the workbench. -/
structure Listed (w : Workbench) (nodes : List Scene) : Prop where
  stamp : w.stamp = nodes.length
  scenes : ∀ s ∈ w.scenes, s.ListedIn nodes

namespace Listed

variable {w : Workbench} {nodes : List Scene}

theorem scene (hw : w.Listed nodes) (k : Nat) : (w.scene k).ListedIn nodes := by
  rw [Workbench.scene, List.getD_eq_getElem?_getD]
  cases h : w.scenes[k]? with
  | none => trivial
  | some s => exact hw.scenes s (List.mem_of_getElem? h)

theorem make (hw : w.Listed nodes) (o : Operation) : Scene.Adds nodes ((w.make o).run w.stamp) := by
  rw [hw.stamp]
  cases o with
  | empty => exact .of_listedIn trivial
  | ofItem i => exact .ofItem nodes i
  | join a b => exact .join (hw.scene a) (hw.scene b)
  | ofList places =>
    refine .ofList fun s hs => ?_
    obtain ⟨k, -, rfl⟩ := List.mem_map.mp hs
    exact hw.scene k
  | transform m a => exact .transform (hw.scene a) m
  | translate dx dy a => exact .transform (hw.scene a) _
  | scale sx sy a => exact .transform (hw.scene a) _
  | rotateRadians angle pivot a => exact .transform (hw.scene a) _
  | rotateDegrees angle pivot a => exact .transform (hw.scene a) _
  | copy a => exact .of_listedIn (hw.scene a)
  | child k a =>
    show Scene.Adds nodes ((w.scene a).children.getD k .empty, nodes.length)
    refine .of_listedIn ?_
    rw [List.getD_eq_getElem?_getD]
    cases h : (w.scene a).children[k]? with
    | none => trivial
    | some c => exact (hw.scene a).child c (List.mem_of_getElem? h)

/-- An operation adds nodes to the list, and leaves those that are there. -/
theorem perform (hw : w.Listed nodes) (o : Operation) :
    ∃ more, (w.perform o).Listed (nodes ++ more) := by
  obtain ⟨more, hstamp, hmade⟩ := hw.make o
  refine ⟨more, hstamp, fun s hs => ?_⟩
  rcases List.mem_append.mp hs with hs | hs
  · exact (hw.scenes s hs).append more
  · rw [List.mem_singleton.mp hs]
    exact hmade

theorem foldl_perform (hw : w.Listed nodes) (operations : List Operation) :
    ∃ all, (operations.foldl Workbench.perform w).Listed all := by
  induction operations generalizing w nodes with
  | nil => exact ⟨nodes, hw⟩
  | cons o operations ih =>
    obtain ⟨more, h⟩ := hw.perform o
    exact ih h

/-- The nodes of a run can be listed. -/
theorem run (operations : List Operation) : ∃ nodes, (run operations).Listed nodes :=
  foldl_perform (show Listed {} [] from ⟨rfl, nofun⟩) operations

end Listed

end Workbench

end VectorScene
