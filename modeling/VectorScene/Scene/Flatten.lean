import VectorScene.Log
import VectorScene.Scene.Basic

/-!
# Flattening a scene

A scene flattens to a list of drawables in the order in which they are painted: unions from left to
right, and each item under the composition of the transforms above it. `Scene.render` states this by
recursion on the scene. `Scene.flatten` keeps the scenes that are still to be flattened on a stack,
each with its transform, so deep scenes need no deep calls; a `Flattening` also holds what was
finished before a failure.
-/

namespace VectorScene

/-- Geometry in final coordinates, and the tool that paints it. -/
structure Drawable where
  tool : Tool
  path : Path
deriving BEq, DecidableEq, Inhabited

/-- Why a scene cannot be flattened. -/
inductive EvalError where
  | geometry (cause : GeometryError)
  /-- The text provider refused with a message. -/
  | text (report : String)
deriving DecidableEq, Inhabited

namespace EvalError

def message : EvalError → String
  | geometry cause => "invalid geometry: " ++ cause.message
  | text report => "text provider error: " ++ report

/-- The messages of what lies below the error. -/
def causes : EvalError → List String
  | geometry cause => [cause.message]
  | text _ => []

end EvalError

/-- An evaluation that may ask a text provider with state `σ`. -/
abbrev EvalM (σ : Type) := EStateM EvalError σ

namespace EvalM

variable {σ : Type}

/-- The result of a check of geometry. -/
def geometry {α : Type} (result : Except GeometryError α) : EvalM σ α :=
  ofExcept (result.mapError .geometry)

/-- The answer of a provider. -/
def ask (text : TextProvider σ) (request : TextRequest) : EvalM σ Path :=
  (text.outlines request).adaptExcept .text

end EvalM

variable {σ : Type}

namespace Item

/-- The path of an item in its own coordinates. -/
def outline (text : TextProvider σ) : Item → EvalM σ Path
  | shape _ primitive => EvalM.geometry primitive.toPath
  | .text _ s options => EvalM.ask text { text := s, options }
  | textAlong _ s options primitive => do
    let along ← EvalM.geometry primitive.toPath
    EvalM.ask text { text := s, options, along := some along }

/-- The item under a transform; every point of the result must be finite. -/
def render (text : TextProvider σ) (i : Item) (m : Affine) : EvalM σ Drawable := do
  let path := (← i.outline text).transformed m
  EvalM.geometry (path.check .transformed)
  return { tool := i.tool, path }

end Item

namespace Scene

/-- The drawables of a scene under a transform. -/
def render (text : TextProvider σ) : Scene → Affine → EvalM σ (List Drawable)
  | empty, _ => return []
  | item _ i, m => return [← i.render text m]
  | union _ a b, m => return (← a.render text m) ++ (← b.render text m)
  | transformed _ inner s, m => s.render text (Affine.compose m inner)

end Scene

/-- A flattening that has come to its end or to a failure. -/
structure Flattening (σ : Type) where
  /-- The drawables that were finished, in the order in which they are painted. -/
  drawables : Array Drawable
  failure : Option EvalError
  /-- The state in which the text provider was left. -/
  state : σ

namespace Flattening

def result (f : Flattening σ) : Except EvalError (List Drawable) :=
  match f.failure with
  | some e => .error e
  | none => .ok f.drawables.toList

def messages (f : Flattening σ) : List Message :=
  f.drawables.toList.mapIdx (fun i d => .drawableFlattened i d.tool)
    ++ if f.failure.isNone then [.sceneFlattened f.drawables.size] else []

end Flattening

namespace Scene

/-- Flattens all scenes, each under its transform, after the drawables that are finished. -/
def flattenAll (text : TextProvider σ) : List (Scene × Affine) → Array Drawable → σ → Flattening σ
  | [], done, state => { drawables := done, failure := none, state }
  | (empty, _) :: rest, done, state => flattenAll text rest done state
  | (item _ i, m) :: rest, done, state =>
    match i.render text m state with
    | .ok d state => flattenAll text rest (done.push d) state
    | .error e state => { drawables := done, failure := some e, state }
  | (union _ a b, m) :: rest, done, state => flattenAll text ((a, m) :: (b, m) :: rest) done state
  | (transformed _ inner s, m) :: rest, done, state =>
    flattenAll text ((s, Affine.compose m inner) :: rest) done state
termination_by scenes => scenes.foldr (fun pair n => pair.1.nodeCount + n) 0
decreasing_by all_goals simp [nodeCount]; try omega

/-- The drawables of a scene in the order in which they are painted. -/
def flatten (s : Scene) (text : TextProvider σ) (state : σ) : Flattening σ :=
  flattenAll text [(s, Affine.identity)] #[] state

end Scene

end VectorScene
