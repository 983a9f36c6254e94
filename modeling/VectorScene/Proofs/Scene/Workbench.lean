import VectorScene.Proofs.Scene.Normal

/-!
# Runs of scene operations

An `Operation` makes one more scene out of those that were made before, which it names by their
places, and a `Workbench` holds all scenes made so far and the next stamp. A run is any list of
operations; nothing else makes a scene, so a run says what scenes there can be. Every operation
keeps all scenes of a workbench normal (`Workbench.Normal.perform`), and so does every run.
-/

namespace VectorScene

/-- One use of what makes scenes, or hands them out again. Scenes made before are named by their
places. -/
inductive Operation where
  | empty
  | ofItem (i : Item)
  | join (a b : Nat)
  | ofList (places : List Nat)
  | transform (m : Affine) (a : Nat)
  | translate (dx dy : Float32) (a : Nat)
  | scale (sx sy : Float32) (a : Nat)
  | rotateRadians (angle : Float32) (pivot : Point) (a : Nat)
  | rotateDegrees (angle : Float32) (pivot : Point) (a : Nat)
  /-- The same scene once more. -/
  | copy (a : Nat)
  /-- The `k`-th scene below the root of another one. -/
  | child (k a : Nat)

/-- The scenes that were made, in order, and the next stamp. -/
structure Workbench where
  scenes : List Scene := []
  stamp : Nat := 0

namespace Workbench

/-- The scene that was made as the `k`-th; the empty scene if there are not so many. -/
def scene (w : Workbench) (k : Nat) : Scene := w.scenes.getD k .empty

/-- The scene that an operation makes. -/
def make (w : Workbench) : Operation → Build Scene
  | .empty => return .empty
  | .ofItem i => Scene.ofItem i
  | .join a b => Scene.join (w.scene a) (w.scene b)
  | .ofList places => Scene.ofList (places.map w.scene)
  | .transform m a => (w.scene a).transform m
  | .translate dx dy a => (w.scene a).translate dx dy
  | .scale sx sy a => (w.scene a).scale sx sy
  | .rotateRadians angle pivot a => (w.scene a).rotate angle pivot
  | .rotateDegrees angle pivot a => (w.scene a).rotate (Scalar.radians angle) pivot
  | .copy a => return w.scene a
  | .child k a => return (w.scene a).children.getD k .empty

/-- Adds the scene that an operation makes. -/
def perform (w : Workbench) (o : Operation) : Workbench :=
  let made := (w.make o).run w.stamp
  { scenes := w.scenes ++ [made.1], stamp := made.2 }

/-- A run of operations, on a new workbench. -/
def run (operations : List Operation) : Workbench := operations.foldl perform {}

/-! ## Normal scenes only -/

/-- Every scene on the workbench is normal. -/
def Normal (w : Workbench) : Prop := ∀ s ∈ w.scenes, s.Normal

theorem Normal.scene {w : Workbench} (hw : w.Normal) (k : Nat) : (w.scene k).Normal := by
  rw [Workbench.scene, List.getD_eq_getElem?_getD]
  cases h : w.scenes[k]? with
  | none => trivial
  | some s => exact hw s (List.mem_of_getElem? h)

theorem Normal.make {w : Workbench} (hw : w.Normal) (o : Operation) (stamp : Nat) :
    ((w.make o).run stamp).1.Normal := by
  cases o with
  | empty => trivial
  | ofItem i => exact .ofItem i stamp
  | join a b => exact (hw.scene a).join (hw.scene b) stamp
  | ofList places =>
    refine Scene.Normal.ofList (fun s hs => ?_) stamp
    obtain ⟨k, -, rfl⟩ := List.mem_map.mp hs
    exact hw.scene k
  | transform m a => exact (hw.scene a).transform m stamp
  | translate dx dy a => exact (hw.scene a).transform _ stamp
  | scale sx sy a => exact (hw.scene a).transform _ stamp
  | rotateRadians angle pivot a => exact (hw.scene a).transform _ stamp
  | rotateDegrees angle pivot a => exact (hw.scene a).transform _ stamp
  | copy a => exact hw.scene a
  | child k a =>
    show ((w.scene a).children.getD k .empty).Normal
    rw [List.getD_eq_getElem?_getD]
    cases h : (w.scene a).children[k]? with
    | none => trivial
    | some c => exact (hw.scene a).child c (List.mem_of_getElem? h)

/-- An operation keeps all scenes normal. -/
theorem Normal.perform {w : Workbench} (hw : w.Normal) (o : Operation) : (w.perform o).Normal := by
  intro s hs
  rcases List.mem_append.mp hs with hs | hs
  · exact hw s hs
  · rw [List.mem_singleton.mp hs]
    exact hw.make o w.stamp

theorem Normal.foldl_perform {w : Workbench} (hw : w.Normal) (operations : List Operation) :
    (operations.foldl Workbench.perform w).Normal := by
  induction operations generalizing w with
  | nil => exact hw
  | cons o operations ih => exact ih (hw.perform o)

/-- Every scene that a run makes is normal; it is empty only if it paints nothing, and making it anew
from its items gives the same tree. -/
theorem normal_of_mem_run (operations : List Operation) {s : Scene}
    (hs : s ∈ (run operations).scenes) :
    s.Normal ∧ (s.isEmpty ↔ s.itemCount = 0) ∧
      ∀ stamp, (s.rebuild.run stamp).1.unstamped = s.unstamped := by
  have hnormal : s.Normal := Normal.foldl_perform (w := {}) nofun operations s hs
  exact ⟨hnormal, hnormal.isEmpty_iff, hnormal.rebuild⟩

/-- Two transforms of an item, the second one not a number, joined to the first one. -/
def nanRun : List Operation :=
  [.ofItem (.text (.fill .black) "a" { family := "f", size := 1 }), .translate 1 0 0,
    .transform ⟨0 / 0, 0, 0, 1, 0, 0⟩ 1, .join 2 1, .child 0 3]

theorem normal_nanRun :
    (run nanRun).scene 3 ∈ (run nanRun).scenes ∧
      ((run nanRun).scene 3).Normal ∧
      (((run nanRun).scene 3).isEmpty ↔ ((run nanRun).scene 3).itemCount = 0) ∧
      ∀ stamp, (((run nanRun).scene 3).rebuild.run stamp).1.unstamped =
        ((run nanRun).scene 3).unstamped := by
  have h : (run nanRun).scene 3 ∈ (run nanRun).scenes := by decide +kernel
  exact ⟨h, normal_of_mem_run nanRun h⟩

end Workbench

end VectorScene
