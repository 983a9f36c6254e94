import VectorScene.Scalar

/-!
# Sine, cosine and tangent

The sine and cosine of an angle are found in whole numbers and rounded once, at the end. A number
is held here as an `Int` that counts units of 2⁻¹²⁰ (`ofBinary`). The angle is reduced by quarter
turns to a remainder of at most half a quarter turn (`reduce`), and the remainder is put into one of
two polynomials, which approximate sine and cosine there; the number of quarter turns says which one
and with which sign.

Below 120 radians the remainder is the angle less a multiple of a quarter turn; from there on the
quarter turns are counted with a window of 96 binary digits of 2/π, cut out where the digits begin
to matter for an angle of that size.
-/

namespace VectorScene.Scalar

namespace Trig

/-- The number of binary places. -/
def places : Nat := 120

/-- The number `m · 2⁻ᵉ`, for `e` up to `places`. -/
def ofBinary (m : Int) (e : Nat) : Int := m <<< (places - e)

/-- A product, cut off after the last place. -/
def mul (a b : Int) : Int := (a * b) >>> places

/-- A number nearest to `v`, which must be less than 2 and not too near to zero. The number is cut
off after 62 places, but kept odd if something was lost, so that it is rounded once. -/
def toScalar (v : Int) : Float32 :=
  let lost := places - 62
  let n := v.natAbs >>> lost
  let n := if n <<< lost = v.natAbs then n else n ||| 1
  let x := n.toUInt64.toFloat32 * .ofBits 0x20800000
  if v < 0 then -x else x

/-- A quarter turn. -/
def quarterTurn : Int := ofBinary 0x1921fb54442d18 52

/-- The sine of a remainder. -/
def sinPoly (x : Int) : Int :=
  let x2 := mul x x
  let x3 := mul x x2
  let low := x + mul x3 (ofBinary (-0x1555545995a603) 55)
  let high := ofBinary 0x11107605230bc4 59 + mul x2 (ofBinary (-0x1994eb3774cf24) 65)
  low + mul (mul x3 x2) high

/-- The cosine of a remainder. -/
def cosPoly (x : Int) : Int :=
  let x2 := mul x x
  let x4 := mul x2 x2
  let low := ofBinary 1 0 + mul x2 (ofBinary (-0x1ffffffd0c621c) 54)
    + mul x4 (ofBinary 0x155553e1068f19 57)
  let high := ofBinary (-0x16c087e89a359d) 62 + mul x2 (ofBinary 0x199343027bf8c3 68)
  low + mul (mul x4 x2) high

/-- The first 192 binary digits of 2/π. -/
def twoOverPi : Nat := 0xa2f9836e4e441529fc2757d1f534ddc0db6295993c439041

/-- Thirty-two binary digits of 2/π, the last of which belong to the byte with index `i`. -/
def digits (i : Nat) : Nat := (twoOverPi >>> (8 * (23 - i))) % (1 <<< 32)

/-- The number of quarter turns nearest to a positive angle, modulo four, and what remains. The
angle is given by the bits of a binary32 number. -/
def reduce (bits : Nat) : Nat × Int :=
  let mantissa : Nat := bits % (1 <<< 23) + (1 <<< 23)
  let exponent : Nat := bits >>> 23
  if bits < 0x42f00000 then
    let x : Nat := mantissa <<< (places + exponent - 150)
    let scaled : Nat := (x * 0x145f306dc9c883) >>> (places + 29)
    let n : Nat := (scaled + (1 <<< 23)) >>> 24
    (n % 4, (x : Int) - n * quarterTurn)
  else
    let i : Nat := (bits >>> 26) % 16
    let m : Nat := mantissa <<< (exponent % 8)
    let turns : Nat := ((m * digits i) <<< 32 + m * digits (i + 4)
      + (m * digits (i + 8)) >>> 32) % (1 <<< 64)
    let n : Nat := (turns + (1 <<< 61)) >>> 62
    let rest : Int := (turns : Int) - (n <<< 62 : Nat)
    (n % 4, ofBinary (rest * 0x1921fb54442d18) 114)

/-- The sine of a positive angle advanced by `quarters` quarter turns. -/
def sinOf (bits quarters : Nat) : Float32 :=
  let (n, x) := reduce bits
  let v := if (n + quarters) % 2 = 0 then sinPoly x else cosPoly x
  toScalar (if (n + quarters) / 2 % 2 = 0 then v else -v)

end Trig

/-- Below this magnitude the sine and the tangent of an angle are the angle, and its cosine is 1. -/
def tinyAngle : Float32 := .ofBits 0x39800000

/-- The sine of an angle in radians. -/
def sin (x : Float32) : Float32 :=
  if x.isFinite then
    if x.abs < tinyAngle then x
    else if x < 0 then -Trig.sinOf x.abs.toBits.toNat 0
    else Trig.sinOf x.toBits.toNat 0
  else x - x

/-- The cosine of an angle in radians. -/
def cos (x : Float32) : Float32 :=
  if x.isFinite then
    if x.abs < tinyAngle then 1 else Trig.sinOf x.abs.toBits.toNat 1
  else x - x

/-- The tangent of an angle of at most an eighth of a turn, by a polynomial in its square; even and
odd powers are summed apart. -/
def smallTan (x : Float32) : Float32 :=
  if x.abs < tinyAngle then x
  else
    let z := x * x
    let w := z * z
    let odd := 1.3333334029e-01 + w * (2.1869488060e-02 + w * (3.5920790397e-03 + w *
      (5.8804126456e-04 + w * (7.8179444245e-05 + w * -1.8558637748e-05))))
    let even := z * (5.3968254477e-02 + w * (8.8632395491e-03 + w * (1.4562094584e-03 + w *
      (2.4646313977e-04 + w * (7.1407252108e-05 + w * 2.5907305826e-05)))))
    let cube := z * x
    x + (z * (cube * (odd + even)) + 3.3333334327e-01 * cube)

end VectorScene.Scalar
