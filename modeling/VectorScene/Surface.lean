import VectorScene.Scene.Flatten

/-!
# Painting

A `Surface` is what can be painted on: a state with two operations that may fail. `paint` replays
drawables on a surface in order and stops at the first failure, and what was painted before it
stays. `draw` flattens a scene completely before it paints anything, so a scene that cannot be
flattened leaves the surface as it was. A text provider and a surface may work on one state.
-/

namespace VectorScene

/-- What can be painted on; each operation paints on top of all before it, and may refuse with a
message. -/
structure Surface (σ : Type) where
  stroke : Color → Float32 → Path → EStateM String σ Unit
  fill : Color → Path → EStateM String σ Unit

/-- Why a scene is not drawn to its end. -/
inductive DrawError where
  /-- The scene could not be flattened, and nothing was painted. -/
  | eval (cause : EvalError)
  /-- The surface refused with a message; what was painted before stays. -/
  | surface (report : String)
deriving DecidableEq, Inhabited

namespace DrawError

def message : DrawError → String
  | eval cause => cause.message
  | surface report => "surface error: " ++ report

/-- The messages of what lies below the error. -/
def causes : DrawError → List String
  | eval cause => cause.message :: cause.causes
  | surface _ => []

end DrawError

variable {σ : Type}

namespace Surface

/-- Paints a drawable by the operation of its tool. -/
def apply (surface : Surface σ) (d : Drawable) : EStateM String σ Unit :=
  match d.tool with
  | .stroke color width => surface.stroke color width d.path
  | .fill color => surface.fill color d.path

/-- The surface that also notes the messages of each operation, which depend on the state before
the operation. -/
def noting (surface : Surface σ) (messages : Drawable → σ → List Message) :
    Surface (σ × Array Message) :=
  let note (d : Drawable) : EStateM String (σ × Array Message) Unit := fun (state, log) =>
    let log := log ++ messages d state
    match surface.apply d state with
    | .ok () state => .ok () (state, log)
    | .error e state => .error e (state, log)
  { stroke := fun color width path => note { tool := .stroke color width, path }
    fill := fun color path => note { tool := .fill color, path } }

end Surface

/-! ## States of their own -/

/-- A step on the first of two states. -/
def onFirst {ε τ α : Type} (x : EStateM ε σ α) : EStateM ε (σ × τ) α := fun (s, t) =>
  match x s with
  | .ok a s => .ok a (s, t)
  | .error e s => .error e (s, t)

/-- A step on the second of two states. -/
def onSecond {ε τ α : Type} (x : EStateM ε σ α) : EStateM ε (τ × σ) α := fun (t, s) =>
  match x s with
  | .ok a s => .ok a (t, s)
  | .error e s => .error e (t, s)

/-- A provider beside which there is another state. -/
def TextProvider.first {τ : Type} (text : TextProvider σ) : TextProvider (σ × τ) :=
  ⟨fun request => onFirst (text.outlines request)⟩

/-- A surface beside which there is another state. -/
def Surface.second {τ : Type} (surface : Surface σ) : Surface (τ × σ) where
  stroke color width path := onSecond (surface.stroke color width path)
  fill color path := onSecond (surface.fill color path)

/-! ## Painting -/

/-- A painting that has come to its end or to a failure. -/
structure Painting (σ : Type) where
  /-- The number of drawables that were painted. -/
  painted : Nat
  failure : Option String
  /-- The state of the surface. -/
  state : σ

/-- Paints drawables in order, with `painted` of them painted before. -/
def paintAll (surface : Surface σ) : List Drawable → Nat → σ → Painting σ
  | [], painted, state => { painted, failure := none, state }
  | d :: rest, painted, state =>
    match surface.apply d state with
    | .ok () state => paintAll surface rest (painted + 1) state
    | .error e state => { painted, failure := some e, state }

/-- Paints all drawables in order. -/
def paint (surface : Surface σ) (drawables : List Drawable) (state : σ) : Painting σ :=
  paintAll surface drawables 0 state

namespace Painting

def result (p : Painting σ) : Except DrawError Unit :=
  match p.failure with
  | some report => .error (.surface report)
  | none => .ok ()

/-- The message of a painting of `total` drawables. -/
def messages (p : Painting σ) (total : Nat) : List Message :=
  match p.failure with
  | some _ => [.surfaceFailed p.painted total]
  | none => [.painted p.painted]

end Painting

/-- A drawing of a scene: its flattening, and its painting unless the flattening failed. -/
structure Drawing (σ : Type) where
  flattening : Flattening σ
  painting : Except EvalError (Painting σ)

/-- Flattens a scene, and then paints its drawables. -/
def draw (s : Scene) (text : TextProvider σ) (surface : Surface σ) (state : σ) : Drawing σ :=
  let flattening := s.flatten text state
  { flattening
    painting := flattening.result.map fun drawables =>
      paint surface drawables flattening.state }

namespace Drawing

/-- The state in which the drawing leaves the text provider and the surface. -/
def state (d : Drawing σ) : σ :=
  match d.painting with
  | .ok p => p.state
  | .error _ => d.flattening.state

def result (d : Drawing σ) : Except DrawError Unit :=
  match d.painting with
  | .ok p => p.result
  | .error e => .error (.eval e)

/-- The messages of the drawing, with those that the surface noted while it was painted on. -/
def messages (d : Drawing σ) (noted : List Message) : List Message :=
  d.flattening.messages ++ noted ++
    match d.painting with
    | .ok p => p.messages d.flattening.drawables.size
    | .error _ => []

end Drawing

end VectorScene
