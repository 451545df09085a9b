import SceneScript.Number.Binary64

/-!
# Decimal notation of binary64 numbers

`ofDecimal` is the value nearest to `±digits · 10 ^ exponent`. `shortest` goes the other way: the
fewest decimal digits that read back as the value, the nearest such ones, an exact tie going to
the even last digit.

`shortest` asks the reader itself whether digits read back, and falls back on the exact expansion,
so what it answers reads back by construction.
-/

namespace SceneScript

/-- The decimal digits of a natural number. -/
def decimalDigits (n : Nat) : List Char := Nat.toDigits 10 n

/-- The decimal digits of a whole number, after a minus sign when it is negative. -/
def intDigits (n : Int) : List Char :=
  if n < 0 then '-' :: decimalDigits n.natAbs else decimalDigits n.natAbs

namespace Binary64

/-- The value nearest to `±digits · 10 ^ exponent`. Beyond `10 ^ 400` it is infinite and below
`10 ^ (-400)` it is zero, without computing the power. -/
def ofDecimal (negative : Bool) (digits : Nat) (exponent : Int) : Binary64 :=
  if digits = 0 then zero negative
  else
    let top := exponent + (decimalDigits digits).length
    if 400 < top then .infinite negative
    else if top < -400 then zero negative
    else if 0 ≤ exponent then ofRatio negative (digits * Nat.pow 10 exponent.toNat) 1
    else ofRatio negative digits (Nat.pow 10 (-exponent).toNat)

/-! ## The shortest digits that read back -/

/-- The power of ten just above a positive magnitude of units: the value is below `10 ^ top` and
not below `10 ^ (top - 1)`. -/
def decimalTop (units : Nat) : Int :=
  ((decimalDigits (units * Nat.pow 10 330 / one)).length : Int) - 330

/-- The better of the two neighbours of a magnitude on the grid of `10 ^ exponent` that read back
as the value `x`, if one does. -/
def neighbour? (x : Binary64) (units : Nat) (exponent : Int) : Option Nat :=
  let num := units * Nat.pow 10 (-exponent).toNat
  let den := one * Nat.pow 10 exponent.toNat
  let low := num / den
  let nearest := roundDiv num den
  let other := if nearest = low then low + 1 else low
  if ofDecimal false nearest exponent = x then some nearest
  else if ofDecimal false other exponent = x then some other
  else none

/-- The digits and the exponent of the shortest decimal that reads back as a positive value given
by its mantissa and shift. -/
def shortest (mantissa shift : Nat) (canonical : Canonical mantissa shift) : Nat × Int :=
  let units := magnitude mantissa shift
  let top := decimalTop units
  let x := finite false mantissa shift canonical
  let attempt (n : Nat) : Option (Nat × Int) :=
    (neighbour? x units (top - (n + 1 : Nat))).map (·, top - (n + 1 : Nat))
  ((List.range 17).findSome? attempt).getD (units * Nat.pow 5 1074, -1074)

end Binary64

end SceneScript
