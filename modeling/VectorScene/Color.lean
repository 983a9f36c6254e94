import VectorScene.Scalar

/-!
# Colors

A `Color` has straight alpha: its red, green and blue are not multiplied by its alpha. `Color.onto`
composites one color onto another by way of premultiplied alpha.
-/

namespace VectorScene

structure Color where
  r : Float32
  g : Float32
  b : Float32
  a : Float32
deriving BEq, DecidableEq, Inhabited

namespace Color

/-- An opaque color. -/
def rgb (r g b : Float32) : Color := ⟨r, g, b, 1⟩

/-- Transparent black. -/
def clear : Color := ⟨0, 0, 0, 0⟩

def black : Color := rgb 0 0 0

def white : Color := rgb 1 1 1

def red : Color := rgb 1 0 0

def green : Color := rgb 0 1 0

def blue : Color := rgb 0 0 1

def withAlpha (c : Color) (a : Float32) : Color := { c with a := a }

/-- From straight to premultiplied alpha. -/
def premultiplied (c : Color) : Color := ⟨c.r * c.a, c.g * c.a, c.b * c.a, c.a⟩

/-- From premultiplied to straight alpha; without alpha nothing of the color is left. -/
def straight (c : Color) : Color :=
  if c.a == 0 then clear else ⟨c.r / c.a, c.g / c.a, c.b / c.a, c.a⟩

/-- The color that `source` leaves when it is painted on `dest`. -/
def onto (source dest : Color) : Color :=
  let s := source.premultiplied
  let d := dest.premultiplied
  let rest := 1 - s.a
  straight ⟨s.r + d.r * rest, s.g + d.g * rest, s.b + d.b * rest, s.a + d.a * rest⟩

/-- A component from 0 to 1 in steps of 1/255; what lies outside is cut off. -/
def quantize (c : Float32) : UInt8 :=
  (Scalar.round (Scalar.lesser (Scalar.greater c 0) 1 * 255)).toUInt8

/-- Red, green, blue and alpha with 8 bits each. -/
def toRgba8 (c : Color) : List UInt8 := [c.r, c.g, c.b, c.a].map quantize

end Color

/-- How a piece of geometry is painted. -/
inductive Tool where
  /-- Its outline, with a pen of the given width. -/
  | stroke (color : Color) (width : Float32)
  /-- Its interior. -/
  | fill (color : Color)
deriving BEq, DecidableEq, Inhabited

def Tool.color : Tool → Color
  | .stroke c _ => c
  | .fill c => c

/-- The width of the pen, if the outline is painted. -/
def Tool.width? : Tool → Option Float32
  | .stroke _ width => some width
  | .fill _ => none

end VectorScene
