import VectorScene.Path.Basic
import VectorScene.Text.Quoted

/-!
# Text

Glyphs come from outside. A `TextRequest` asks for the outlines of a text, laid out by
`TextOptions` and, if a path is given, along it; a `TextProvider` answers with a path or refuses
with a message. A provider may change a state of its own kind while it answers, which is where
requests can be recorded or glyphs be kept.
-/

namespace VectorScene

/-- Where the origin lies in a line of text. -/
inductive TextAlign where
  | start
  | center
  | finish
deriving BEq, DecidableEq, Inhabited

structure TextOptions where
  family : String
  /-- The size of the font in output units. -/
  size : Float32
  /-- The origin of the first baseline, or the offset along a path. -/
  origin : Point := Point.origin
  align : TextAlign := .start
  /-- The height of a line as a multiple of the size. -/
  lineSpacing : Float32 := 1.2
deriving BEq, DecidableEq, Inhabited

structure TextRequest where
  text : String
  options : TextOptions
  /-- The path along which the text runs. -/
  along : Option Path := none
deriving BEq, DecidableEq, Inhabited

/-- What answers requests for outlines; the outlines are in the coordinates of the shapes. -/
structure TextProvider (σ : Type) where
  outlines : TextRequest → EStateM String σ Path

namespace TextProvider

/-- The provider that answers by a function alone. -/
def ofFunction {σ : Type} (answer : TextRequest → Except String Path) : TextProvider σ :=
  ⟨fun request => ofExcept (answer request)⟩

/-- The provider of a scene without text, which refuses every request. -/
def unavailable {σ : Type} : TextProvider σ :=
  ofFunction fun request => .error ("no text provider available for " ++ Text.quoted request.text)

end TextProvider

end VectorScene
