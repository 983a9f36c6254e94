import VectorScene.Color
import VectorScene.Segment

/-!
# Messages

What is worth telling about a run beside its result. Every operation that has something to tell has
a function that gives its messages in order, so a message is a value like any other, with all that it
names.
-/

namespace VectorScene

inductive Level where
  | trace
  | debug
  | warn
deriving BEq, DecidableEq, Inhabited

inductive Message where
  /-- A segment lay outside any figure. -/
  | segmentSkipped (segment : Segment)
  /-- Figures without segments were left out of a path. -/
  | figuresDropped (count : Nat)
  | pathConstructed (figures instructions : Nat)
  | drawableFlattened (index : Nat) (tool : Tool)
  | sceneFlattened (drawables : Nat)
  | surfaceFailed (index total : Nat)
  | painted (drawables : Nat)
  | covered (triangles pixels : Nat)
deriving BEq, DecidableEq, Inhabited

namespace Message

def level : Message → Level
  | segmentSkipped _ => .debug
  | figuresDropped _ => .warn
  | pathConstructed _ _ => .trace
  | drawableFlattened _ _ => .trace
  | sceneFlattened _ => .debug
  | surfaceFailed _ _ => .debug
  | painted _ => .debug
  | covered _ _ => .trace

/-- The text of a message. The segment and the tool that a message names are not spelled out. -/
def text : Message → String
  | segmentSkipped _ => "path command without a figure; skipped"
  | figuresDropped count => "dropped " ++ toString count ++ " empty figure(s)"
  | pathConstructed figures instructions =>
    "constructed path with " ++ toString figures ++ " figure(s) from " ++ toString instructions
      ++ " instruction(s)"
  | drawableFlattened index _ => "drawable #" ++ toString index
  | sceneFlattened drawables => "flattened scene to " ++ toString drawables ++ " drawable(s)"
  | surfaceFailed index total =>
    "surface failed at drawable " ++ toString index ++ " of " ++ toString total
  | painted drawables => "painted " ++ toString drawables ++ " drawable(s)"
  | covered triangles pixels =>
    toString triangles ++ " triangle(s) covering " ++ toString pixels ++ " pixel(s)"

end Message

end VectorScene
