import SceneScript.Number.Basic
import SceneScript.Text.Blank
import SceneScript.Text.Character

/-!
# Reading numbers

Three readers share one scanner of decimal numerals, with digits of every script:

* `readNumeral` reads a number as scripts write it; digits alone are a whole number.
* `readDouble` reads any text as a binary64 number: white space around it, underscores between
  digits and the words for infinity and not-a-number are allowed.
* `readWhole` reads any text as a whole number, again with underscores between digits.
-/

namespace SceneScript

/-! ## Numerals -/

/-- A decimal numeral, taken apart. -/
structure Numeral where
  /-- Whether a minus sign stands before it. -/
  negative : Bool
  /-- The digits before the point. -/
  whole : List Char
  /-- The digits after the point, if there is one. -/
  fraction : Option (List Char)
  /-- The power of ten, if there is one. -/
  exponent : Option Int
  deriving DecidableEq

namespace Numeral

/-- A sign, and what follows it. -/
def takeSign : List Char → Bool × List Char
  | '-' :: s => (true, s)
  | '+' :: s => (false, s)
  | s => (false, s)

/-- The digits at the front of a text, and what follows them. -/
def takeDigits (s : List Char) : List Char × List Char :=
  (s.takeWhile Text.isDigit, s.dropWhile Text.isDigit)

/-- A point with its digits, and what follows. -/
def takeFraction : List Char → Option (List Char) × List Char
  | '.' :: s => (some (takeDigits s).1, (takeDigits s).2)
  | s => (none, s)

/-- An exponent, and what follows; a letter without digits after it is no exponent. -/
def takeExponent : List Char → Option Int × List Char
  | [] => (none, [])
  | c :: s =>
    if c = 'e' || c = 'E' then
      let (negative, t) := takeSign s
      let (ds, rest) := takeDigits t
      if ds.isEmpty then (none, c :: s)
      else
        let n : Int := Text.natOfDigits ds
        (some (if negative then -n else n), rest)
    else (none, c :: s)

/-- A numeral that is the whole text. There has to be a digit before or after the point. -/
def ofText (s : List Char) : Option Numeral :=
  let (negative, s) := takeSign s
  let (whole, s) := takeDigits s
  let (fraction, s) := takeFraction s
  let (exponent, s) := takeExponent s
  if s.isEmpty && !(whole.isEmpty && (fraction.getD []).isEmpty) then
    some ⟨negative, whole, fraction, exponent⟩
  else none

/-- The binary64 number nearest to a numeral. -/
def toDouble (n : Numeral) : Binary64 :=
  let fraction := n.fraction.getD []
  Binary64.ofDecimal n.negative (Text.natOfDigits (n.whole ++ fraction))
    (n.exponent.getD 0 - fraction.length)

/-- The whole number that a numeral without point and exponent writes. -/
def toInt (n : Numeral) : Int :=
  if n.negative then -(Text.natOfDigits n.whole : Int) else Text.natOfDigits n.whole

/-- Whether a numeral is read as a whole number: no point, no exponent, not too long. -/
def isWhole (n : Numeral) : Bool :=
  n.fraction.isNone && n.exponent.isNone && n.whole.length ≤ digitLimit

/-- The number that a numeral writes. -/
def toNum (n : Numeral) : Num := if n.isWhole then .int n.toInt else .double n.toDouble

end Numeral

/-- A number as scripts write it, with white space around it. -/
def readNumeral (s : List Char) : Option Num := (Numeral.ofText (Text.trim s)).map Numeral.toNum

/-! ## Free numeric texts -/

/-- White space that may stand around a free numeric text: all but the ASCII separators. -/
def isNumericBlank (c : Char) : Bool :=
  Text.isBlank c && !(0x1C ≤ c.toNat && c.toNat ≤ 0x1F)

/-- A text without the white space around it. -/
def trimNumeric (s : List Char) : List Char :=
  ((s.dropWhile isNumericBlank).reverse.dropWhile isNumericBlank).reverse

/-- A text without its underscores, which have to stand between digits; `digitBefore` tells
whether a digit came just before. -/
def dropUnderscores : Bool → List Char → Option (List Char)
  | _, [] => some []
  | digitBefore, '_' :: s =>
    match s with
    | c :: _ => if digitBefore && Text.isDigit c then dropUnderscores false s else none
    | [] => none
  | _, c :: s => (dropUnderscores (Text.isDigit c) s).map (c :: ·)

/-- Infinity or not-a-number by name, in letters of either case. -/
def namedDouble? (negative : Bool) (s : List Char) : Option Binary64 :=
  let name := s.map Char.toLower
  if name = "inf".toList || name = "infinity".toList then some (.infinite negative)
  else if name = "nan".toList then some .nan
  else none

/-- A text as a binary64 number. -/
def readDouble (s : List Char) : Except NumberError Binary64 :=
  let t := trimNumeric s
  let (negative, body) := Numeral.takeSign t
  match namedDouble? negative body with
  | some x => .ok x
  | none =>
    match (dropUnderscores false t).bind Numeral.ofText with
    | some n => .ok n.toDouble
    | none => .error (.notNumeric (String.ofList s))

/-- A text as a whole number. -/
def readWhole (s : List Char) : Except NumberError Int :=
  let (negative, body) := Numeral.takeSign (trimNumeric s)
  match dropUnderscores false (body.takeWhile (fun c => Text.isDigit c || c == '_')) with
  | none => .error (.notWhole (String.ofList s))
  | some digits =>
    if digits.isEmpty then .error (.notWhole (String.ofList s))
    else if digitLimit < digits.length then .error (.tooManyDigits digits.length)
    else if body.all (fun c => Text.isDigit c || c == '_') then
      let n : Int := Text.natOfDigits digits
      .ok (if negative then -n else n)
    else .error (.notWhole (String.ofList s))

end SceneScript
