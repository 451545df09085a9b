import SceneScript.Number.Decimal
import SceneScript.Text.Quoted

/-!
# Numbers

A number is a whole number of any size or a binary64 number, and the two are kept apart: a sum of
whole numbers is whole and exact, any other sum is binary64. A whole number that has no binary64
neighbour makes a conversion fail, and so does an infinite or missing value where a whole number
is asked for; `NumberError` lists the causes.

* `Num.add`, `Num.twice`, `Num.half` are the arithmetic of positions and sizes.
* `Num.roundHalfUp` is the rounding of everything that is printed as a whole number.
* `Num.lt` compares exactly, whatever the kinds.
-/

namespace SceneScript

/-- A number: a whole number of any size, or a binary64 number. -/
inductive Num where
  /-- A whole number. -/
  | int (n : Int)
  /-- A binary64 number. -/
  | double (x : Binary64)
  deriving DecidableEq

instance : Inhabited Num := ⟨.int 0⟩

instance (n : Nat) : OfNat Num n := ⟨.int n⟩

/-! ## Kinds of values -/

/-- The kind of a value. -/
inductive ValueKind where
  | null
  | boolean
  | integer
  | double
  | string
  | array
  | object
  | date
  | dateTime
  deriving DecidableEq, Repr

/-- The word for a kind in messages. -/
def ValueKind.word : ValueKind → String
  | .null => "NoneType"
  | .boolean => "bool"
  | .integer => "int"
  | .double => "float"
  | .string => "str"
  | .array => "list"
  | .object => "dict"
  | .date => "datetime.date"
  | .dateTime => "datetime.datetime"

/-! ## What can go wrong -/

/-- Why a number cannot be had. -/
inductive NumberError where
  /-- A whole number is too large for binary64. -/
  | integerTooLarge
  /-- Half of a whole number is too large for binary64. -/
  | quotientTooLarge
  /-- Infinity has no whole part. -/
  | wholeOfInfinity
  /-- Not-a-number has no whole part. -/
  | wholeOfNaN
  /-- A text is no number. -/
  | notNumeric (text : String)
  /-- A text is no whole number. -/
  | notWhole (text : String)
  /-- A whole number has more digits than are read. -/
  | tooManyDigits (count : Nat)
  /-- A whole number has more digits than are written. -/
  | tooLong
  /-- A value of this kind is no number. -/
  | notNumber (kind : ValueKind)
  /-- A value of this kind is no whole number. -/
  | notWholeNumber (kind : ValueKind)
  deriving DecidableEq, Repr

/-- How many digits of a whole number are read, and how many are written. -/
def digitLimit : Nat := 4300

/-- The words for an error. -/
def NumberError.message : NumberError → String
  | .integerTooLarge => "int too large to convert to float"
  | .quotientTooLarge => "integer division result too large for a float"
  | .wholeOfInfinity => "cannot convert float infinity to integer"
  | .wholeOfNaN => "cannot convert float NaN to integer"
  | .notNumeric text => "could not convert string to float: " ++ Text.quotedString text
  | .notWhole text =>
    "invalid literal for int() with base 10: "
      ++ String.ofList ((Text.quoted text.toList).take 200)
  | .tooManyDigits count =>
    "Exceeds the limit (4300 digits) for integer string conversion: value has "
      ++ String.ofList (decimalDigits count)
      ++ " digits; use sys.set_int_max_str_digits() to increase the limit"
  | .tooLong =>
    "Exceeds the limit (4300 digits) for integer string conversion; "
      ++ "use sys.set_int_max_str_digits() to increase the limit"
  | .notNumber kind =>
    "float() argument must be a string or a real number, not \x27" ++ kind.word ++ "\x27"
  | .notWholeNumber kind =>
    "int() argument must be a string, a bytes-like object or a real number, not \x27"
      ++ kind.word ++ "\x27"

/-- Whether an error is that a number is out of range: a value of the right kind that has no
counterpart. -/
def NumberError.isOverflow : NumberError → Bool
  | .integerTooLarge | .quotientTooLarge | .wholeOfInfinity => true
  | _ => false

namespace Num

/-- The kind of a number. -/
def kind : Num → ValueKind
  | .int _ => .integer
  | .double _ => .double

/-- A truth value as a number: one or zero. -/
def ofBool (b : Bool) : Num := .int (if b then 1 else 0)

/-- Whether a number is not-a-number. -/
def isNaN : Num → Bool
  | .int _ => false
  | .double x => x = .nan

/-! ## Conversion -/

/-- A rounded value, refused when it is too large. -/
def inRange (tooLarge : NumberError) : Binary64 → Except NumberError Binary64
  | .infinite _ => .error tooLarge
  | x => .ok x

/-- A number as binary64, when it is not too large. -/
def toDouble : Num → Except NumberError Binary64
  | .double x => .ok x
  | .int n => inRange .integerTooLarge (Binary64.ofInt n)

/-- A whole number got from a binary64 number, refusing infinities and not-a-number. -/
def wholePart (whole? : Binary64 → Option Int) (x : Binary64) : Except NumberError Int :=
  match whole? x with
  | some n => .ok n
  | none => .error (if x = .nan then .wholeOfNaN else .wholeOfInfinity)

/-- The greatest whole number not above the value plus one half, the sum being binary64. -/
def roundHalfUp (v : Num) : Except NumberError Int := do
  let x ← v.toDouble
  wholePart Binary64.floor? (x.add Binary64.oneHalf)

/-- The whole part of a number, toward zero. -/
def truncate : Num → Except NumberError Int
  | .int n => .ok n
  | .double x => wholePart Binary64.truncate? x

/-! ## Arithmetic -/

/-- The sum: exact between whole numbers, binary64 otherwise. -/
def add : Num → Num → Except NumberError Num
  | .int a, .int b => .ok (.int (a + b))
  | a, b => do
    let x ← a.toDouble
    let y ← b.toDouble
    return .double (x.add y)

/-- Twice a number. -/
def twice : Num → Num
  | .int n => .int (n * 2)
  | .double x => .double x.twice

/-- Half a number, always binary64. -/
def half : Num → Except NumberError Num
  | .int n => (inRange .quotientTooLarge (Binary64.ofRatio (n < 0) n.natAbs 2)).map .double
  | .double x => .ok (.double x.half)

/-! ## Order -/

/-- Exact comparison of two numbers. -/
def lt : Num → Num → Bool
  | .int a, .int b => a < b
  | .int a, .double y => Binary64.intLt a y
  | .double x, .int b => x.ltInt b
  | .double x, .double y => x.lt y

/-- Exact equality of two numbers, whatever their kinds. -/
def eqv : Num → Num → Bool
  | .int a, .int b => a == b
  | .int a, .double y => y.toInt? == some a
  | .double x, .int b => x.toInt? == some b
  | .double x, .double y => x.eqv y

/-- At most: below or equal. -/
def le (a b : Num) : Bool := a.lt b || a.eqv b

/-- The larger of two numbers: the first, unless the second is above it. -/
def max (a b : Num) : Num := if a.lt b then b else a

/-- The smaller of two numbers: the first, unless the second is below it. -/
def min (a b : Num) : Num := if b.lt a then b else a

end Num

end SceneScript
