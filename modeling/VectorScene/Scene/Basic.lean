import VectorScene.Color
import VectorScene.Primitive
import VectorScene.Text.Provider

/-!
# Scenes

A `Scene` is a tree of painted items. Every node but the empty scene bears a stamp, which tells it
from every other node that was ever made; two occurrences of one node in a tree, or in two trees,
bear the same stamp and can so be known as shared. New stamps are drawn in `Build`.

Scenes are made with `Scene.ofItem`, `Scene.join` and `Scene.transform`, and these keep a scene
free of what paints nothing: a union has no empty operand, a transform is not the exact identity,
is not applied to an empty scene, and is never applied to another transform.
-/

namespace VectorScene

/-- What is painted at one place of a scene. -/
inductive Item where
  | shape (tool : Tool) (primitive : Primitive)
  | text (tool : Tool) (text : String) (options : TextOptions)
  /-- A text that runs along a primitive. -/
  | textAlong (tool : Tool) (text : String) (options : TextOptions) (primitive : Primitive)
deriving BEq, DecidableEq, Inhabited

def Item.tool : Item → Tool
  | shape t _ => t
  | text t _ _ => t
  | textAlong t _ _ _ => t

inductive Scene where
  | empty
  | item (stamp : Nat) (item : Item)
  /-- The left scene, painted before the right one. -/
  | union (stamp : Nat) (left right : Scene)
  /-- A scene with a transform applied to all of it. -/
  | transformed (stamp : Nat) (transform : Affine) (inner : Scene)
deriving DecidableEq, Inhabited

/-- The making of scenes; the state is the next stamp. -/
abbrev Build := StateM Nat

namespace Scene

/-- A stamp that no node bears yet. -/
def newStamp : Build Nat := modifyGet fun n => (n, n + 1)

def isEmpty : Scene → Bool
  | empty => true
  | _ => false

/-- The stamp of the root; the empty scene has none. -/
def stamp? : Scene → Option Nat
  | empty => none
  | item s _ => some s
  | union s _ _ => some s
  | transformed s _ _ => some s

/-- Whether two scenes have one node as their root; all empty scenes are the same. -/
def sameNode (a b : Scene) : Bool := a.stamp? == b.stamp?

/-- The scenes below the root, from left to right. -/
def children : Scene → List Scene
  | union _ a b => [a, b]
  | transformed _ _ s => [s]
  | _ => []

/-- The number of nodes of the tree. -/
def nodeCount : Scene → Nat
  | empty => 1
  | item _ _ => 1
  | union _ a b => a.nodeCount + b.nodeCount + 1
  | transformed _ _ s => s.nodeCount + 1

theorem nodeCount_pos (s : Scene) : 0 < s.nodeCount := by
  cases s <;> simp [nodeCount]

/-! ## Making scenes -/

def ofItem (i : Item) : Build Scene := return item (← newStamp) i

/-- Paints `a`, and then `b`; an empty operand is left out. -/
def join (a b : Scene) : Build Scene :=
  if a.isEmpty then return b
  else if b.isEmpty then return a
  else return union (← newStamp) a b

/-- Joins all scenes from left to right. -/
def ofList (scenes : List Scene) : Build Scene := scenes.foldlM join empty

/-- Applies a transform to all of a scene. The exact identity changes nothing. A transform of a
transformed scene is composed with the transform that is there, and if the two cancel but for
rounding, both are left out. -/
def transform (m : Affine) (s : Scene) : Build Scene :=
  if m == Affine.identity then return s
  else
    match s with
    | empty => return empty
    | transformed _ current inner =>
      let composed := Affine.compose m current
      if composed.isNearIdentity then return inner
      else return transformed (← newStamp) composed inner
    | s => return transformed (← newStamp) m s

def translate (dx dy : Float32) (s : Scene) : Build Scene := s.transform (Affine.translation dx dy)

def scale (sx sy : Float32) (s : Scene) : Build Scene := s.transform (Affine.scale sx sy)

/-- Rotates a scene about a point by an angle in radians. -/
def rotate (angle : Float32) (pivot : Point) (s : Scene) : Build Scene :=
  s.transform (Affine.rotationAbout angle pivot)

/-! ## Counting -/

/-- The number of items of all scenes, with `n` counted before. -/
def countItems : List Scene → Nat → Nat
  | [], n => n
  | empty :: rest, n => countItems rest n
  | item _ _ :: rest, n => countItems rest (n + 1)
  | union _ a b :: rest, n => countItems (a :: b :: rest) n
  | transformed _ _ s :: rest, n => countItems (s :: rest) n
termination_by scenes => scenes.foldr (fun scene n => scene.nodeCount + n) 0
decreasing_by all_goals simp [nodeCount]; try omega

/-- The number of items of a scene; a shared part counts at each occurrence. -/
def itemCount (s : Scene) : Nat := countItems [s] 0

end Scene

end VectorScene
