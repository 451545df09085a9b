import SceneScript.Number.Basic

/-!
# Writing numbers

A binary64 number is written with the shortest digits that read back, in positional notation when
the leading digit stands between `10 ^ (-4)` and `10 ^ 15`, and with an exponent of at least two
digits otherwise. Positional notation always has a point with a digit after it, so a binary64
number never looks like a whole one.

`Num.plain` is the form of script arguments: a whole value is written without a point, whatever
its kind.

A whole number of more than `digitLimit` digits is not written, as it is not read. `Num.isShort`
says that a number is none; whoever writes a number asks it first. What `Num.plain` writes is short,
as it comes from a binary64 number.
-/

namespace SceneScript

/-- A run of zeros. -/
def zeros (n : Nat) : List Char := List.replicate n '0'

/-- A number `0.d₁d₂… · 10 ^ point` with the point among the digits. -/
def positional (digits : List Char) (point : Int) : List Char :=
  if point ≤ 0 then '0' :: '.' :: zeros (-point).toNat ++ digits
  else
    let whole := digits.take point.toNat
    let fraction := digits.drop point.toNat
    whole ++ zeros (point.toNat - whole.length) ++
      '.' :: (if fraction.isEmpty then ['0'] else fraction)

/-- A number `0.d₁d₂… · 10 ^ point` with one digit before the point, and an exponent. -/
def scientific (digits : List Char) (point : Int) : List Char :=
  let exponent := point - 1
  let size := decimalDigits exponent.natAbs
  digits.take 1 ++ (if 1 < digits.length then '.' :: digits.drop 1 else [])
    ++ ['e', if exponent < 0 then '-' else '+'] ++ zeros (2 - size.length) ++ size

/-- A number `0.d₁d₂… · 10 ^ point`, positional from `10 ^ (-4)` up to below `10 ^ 16`. -/
def decimalText (digits : List Char) (point : Int) : List Char :=
  if -3 ≤ point ∧ point ≤ 16 then positional digits point else scientific digits point

/-- A binary64 number in its shortest notation. -/
def Binary64.digits : Binary64 → List Char
  | .nan => ['n', 'a', 'n']
  | .infinite negative => (if negative then ['-'] else []) ++ ['i', 'n', 'f']
  | .finite negative mantissa shift canonical =>
    let sign := if negative then ['-'] else []
    if mantissa = 0 then sign ++ ['0', '.', '0']
    else
      let (n, exponent) := shortest mantissa shift canonical
      let ds := decimalDigits n
      let significant := (ds.reverse.dropWhile (· == '0')).reverse
      sign ++ decimalText significant (ds.length + exponent)

/-- A number in its own notation: digits alone when it is whole, a point or an exponent when it is
binary64. -/
def Num.digits : Num → List Char
  | .int n => intDigits n
  | .double x => x.digits

/-- A number in its own notation. -/
def Num.text (v : Num) : String := String.ofList v.digits

/-- Whether a number can be written: a whole number only when it has few enough digits. -/
def Num.isShort : Num → Bool
  | .int n => (decimalDigits n.natAbs).length ≤ digitLimit
  | .double _ => true

/-- A number as a script argument: converted to binary64, then written without a point when the
value is whole. -/
def Num.plain (v : Num) : Except NumberError (List Char) := do
  let x ← v.toDouble
  return match x.toInt? with
    | some n => intDigits n
    | none => x.digits

end SceneScript
