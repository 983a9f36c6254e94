/-!
# Scalars

Every coordinate, angle, width and color component is a binary32 number, and each operation on
it rounds once, in the order in which it is written. This module holds the constants of angles
and the operations that choose or round: `lesser` and `greater` pass over a NaN operand, and
`floor`, `ceil` and `round` are written with the conversion to a whole number, so that they
compute wherever the arithmetic does.
-/

namespace VectorScene.Scalar

/-! ## Angles -/

/-- A full turn in radians. -/
def turn : Float32 := .ofBits 0x40c90fdb

/-- An eighth of a turn in radians. -/
def eighthTurn : Float32 := .ofBits 0x3f490fdb

/-- One degree in radians. -/
def degree : Float32 := .ofBits 0x3c8efa35

/-- An angle given in degrees, in radians. -/
def radians (degrees : Float32) : Float32 := degrees * degree

/-! ## Choosing -/

/-- The smaller of two numbers; a NaN gives way to the other operand. -/
def lesser (a b : Float32) : Float32 :=
  if a.isNaN then b else if b < a then b else a

/-- The greater of two numbers; a NaN gives way to the other operand. -/
def greater (a b : Float32) : Float32 :=
  if a.isNaN then b else if a < b then b else a

/-! ## Whole numbers -/

/-- The number nearest to `n`, for `n` below 2⁶⁴. -/
def ofNat (n : Nat) : Float32 := n.toUInt64.toFloat32

/-- The whole number of a scalar, cut off at 0 and at the largest 64-bit number; NaN gives 0. -/
def toNat (x : Float32) : Nat := x.toUInt64.toNat

/-- From this magnitude on, every number is whole. -/
def wholeFrom : Float32 := 8388608

/-- The whole part of a number from 0 up to `wholeFrom`. -/
def whole (x : Float32) : Float32 := x.toUInt32.toFloat32

/-- The least whole number that is not below a number from 0 up to `wholeFrom`. -/
def wholeAbove (x : Float32) : Float32 :=
  let w := whole x
  if w < x then w + 1 else w

/-- The greatest whole number that is not above `x`. -/
def floor (x : Float32) : Float32 :=
  if x.abs < wholeFrom then
    if x < 0 then -wholeAbove (-x) else whole x
  else x

/-- The least whole number that is not below `x`. -/
def ceil (x : Float32) : Float32 :=
  if x.abs < wholeFrom then
    if x < 0 then -whole (-x) else wholeAbove x
  else x

/-- The nearest whole number; a half goes away from zero. -/
def round (x : Float32) : Float32 :=
  if x.abs < wholeFrom then
    let w := whole x.abs
    let r := if 0.5 ≤ x.abs - w then w + 1 else w
    if x < 0 then -r else r
  else x

end VectorScene.Scalar
