import SceneScript.Text.Lines
import SceneScript.Yaml.Fault
import SceneScript.Yaml.Value

/-!
# What plain scalars stand for

A plain scalar is a truth value, a number, null, a date or a text, by the form that it has; only
ASCII digits make numbers and dates. Whole numbers may be binary, octal, hexadecimal or sexagesimal,
and underscores between digits count for nothing.

* `truth?`, `whole?`, `double?`, `moment?` read a scalar of one form, or find that it has another.
* A scalar may have the form of a number or a date and still write none; then reading it fails.
-/

namespace SceneScript.Yaml

/-- What reading a scalar of one form gives: nothing if it has another form. -/
abbrev Form (α : Type) := Option (Except Fault α)

/-! ## Words -/

/-- Whether a text is one of some words. -/
def isOneOf (words : List String) (s : List Char) : Bool := words.any (fun word => word.toList = s)

/-- Whether a plain scalar is null. -/
def isNull (s : List Char) : Bool := isOneOf ["", "~", "null", "Null", "NULL"] s

/-- The truth value that a plain scalar names. -/
def truth? (s : List Char) : Option Bool :=
  if isOneOf ["yes", "Yes", "YES", "true", "True", "TRUE", "on", "On", "ON"] s then some true
  else if isOneOf ["no", "No", "NO", "false", "False", "FALSE", "off", "Off", "OFF"] s then
    some false
  else none

/-! ## Digits -/

/-- A digit, or an underscore between digits. -/
def isDigitOrGap (c : Char) : Bool := c.isDigit || c == '_'

/-- Whether a text starts with a digit and goes on with digits and underscores. -/
def isDigits : List Char → Bool
  | [] => false
  | c :: s => c.isDigit && s.all isDigitOrGap

/-- A text without its underscores. -/
def dropGaps (s : List Char) : List Char := s.filter (· ≠ '_')

/-- The number that digits write in a base. -/
def natOfBase (base : Nat) (digits : List Char) : Nat :=
  digits.foldl (fun n c => n * base + (Text.hexValue? c).getD 0) 0

/-- The number that digits and underscores write in a base. -/
def readDigits (base : Nat) (s : List Char) : Except Fault Nat :=
  let digits := dropGaps s
  if digits.isEmpty then .error (.noDigits base)
  else if base = 10 && digitLimit < digits.length then
    .error (.number (.tooManyDigits digits.length))
  else .ok (natOfBase base digits)

/-- Whether a text is a sexagesimal digit after the first one: up to 59, perhaps with one zero in
front. -/
def isSixtieth : List Char → Bool
  | [a] => a.isDigit
  | [a, b] => a.isDigit && a ≤ '5' && b.isDigit
  | _ => false

/-! ## Whole numbers -/

/-- The number of sexagesimal digits, the most significant first. -/
def ofSixtieths (digits : List Nat) : Nat := digits.foldl (fun n d => n * 60 + d) 0

/-- The magnitude that a scalar without sign writes, if it has the form of a whole number. -/
def magnitude? (s : List Char) : Form Nat :=
  match s with
  | ['0'] => some (.ok 0)
  | '0' :: 'b' :: digits =>
    if !digits.isEmpty && digits.all (fun c => c = '0' || c = '1' || c = '_') then
      some (readDigits 2 digits)
    else none
  | '0' :: 'x' :: digits =>
    if !digits.isEmpty && digits.all (fun c => c = '_' || (Text.hexValue? c).isSome) then
      some (readDigits 16 digits)
    else none
  | '0' :: digits =>
    if digits.all (fun c => c = '_' || ('0' ≤ c && c ≤ '7')) then
      some (readDigits 8 ('0' :: digits))
    else none
  | s =>
    match Text.split ':' s with
    | [digits] => if isDigits digits then some (readDigits 10 digits) else none
    | first :: others =>
      if isDigits first && others.all isSixtieth then
        some ((first :: others).mapM (readDigits 10) |>.map ofSixtieths)
      else none
    | [] => none

/-- The whole number that a plain scalar writes, if it has the form of one. -/
def whole? (s : List Char) : Form Int :=
  let (negative, body) := Numeral.takeSign s
  (magnitude? body).map (fun r => r.map (fun n => if negative then -(n : Int) else n))

/-! ## Binary64 numbers -/

/-- Whether a text is an exponent, which has to have a sign, or nothing. -/
def isExponent : List Char → Bool
  | [] => true
  | e :: sign :: digits =>
    (e = 'e' || e = 'E') && (sign = '-' || sign = '+') && !digits.isEmpty
      && digits.all Char.isDigit
  | [_] => false

/-- Whether a text without sign is a decimal numeral: digits with a point after them or among
them. -/
def isDecimal (s : List Char) : Bool :=
  match s.dropWhile isDigitOrGap with
  | '.' :: rest =>
    isDigits (s.takeWhile isDigitOrGap) && isExponent (rest.dropWhile isDigitOrGap)
  | _ => false

/-- Whether a text is a point with digits after it. -/
def isFraction (s : List Char) : Bool :=
  match s with
  | '.' :: rest =>
    isDigits (rest.takeWhile isDigitOrGap) && isExponent (rest.dropWhile isDigitOrGap)
  | _ => false

/-- Whether a text is the last digit of a sexagesimal numeral with a point. -/
def isLastSixtieth (s : List Char) : Bool :=
  match s.dropWhile Char.isDigit with
  | '.' :: fraction => isSixtieth (s.takeWhile Char.isDigit) && fraction.all isDigitOrGap
  | _ => false

/-- The digits of a sexagesimal numeral with a point. -/
def sixtieths? (s : List Char) : Option (List (List Char)) :=
  match Text.split ':' s with
  | first :: others =>
    match others.reverse with
    | final :: between =>
      if isDigits first && between.all isSixtieth && isLastSixtieth final then
        some (first :: others)
      else none
    | [] => none
  | [] => none

/-- The binary64 number of a numeral with underscores. -/
def decimalValue (s : List Char) : Binary64 :=
  ((Numeral.ofText (dropGaps s)).map Numeral.toDouble).getD (.zero false)

/-- The sum of some digits, the least significant first, from a power of sixty on. -/
def sumSixtieths (sum : Binary64) (base : Nat) : List Binary64 → Except Fault Binary64
  | [] => .ok sum
  | d :: ds => do
    let factor ← ((Num.int base).toDouble).mapError Fault.number
    sumSixtieths (sum.add (d.mul factor)) (base * 60) ds

/-- The binary64 number that a plain scalar writes, if it has the form of one. -/
def double? (s : List Char) : Form Binary64 :=
  let (negative, body) := Numeral.takeSign s
  let withSign (x : Binary64) : Binary64 := if negative then x.neg else x
  if isOneOf [".inf", ".Inf", ".INF"] body then some (.ok (.infinite negative))
  else if isOneOf [".nan", ".NaN", ".NAN"] s then some (.ok .nan)
  else if isDecimal body || isFraction s then some (.ok (withSign (decimalValue body)))
  else
    (sixtieths? body).map fun digits =>
      (sumSixtieths (.zero false) 1 (digits.reverse.map decimalValue)).map withSign

/-! ## Dates -/

/-- A number of at least some and at most some digits at the front of a text, and what follows. -/
def takeNumber? (least most : Nat) (s : List Char) : Option (Nat × List Char) :=
  let digits := (s.take most).takeWhile Char.isDigit
  if digits.length < least then none else some (natOfBase 10 digits, s.drop digits.length)

/-- A sign and a number after it. -/
def takeAfter? (sign : Char) (least most : Nat) (s : List Char) : Option (Nat × List Char) :=
  match s with
  | c :: rest => if c = sign then takeNumber? least most rest else none
  | [] => none

/-- The number of days of a month. -/
def daysOfMonth (year month : Nat) : Nat :=
  if month = 2 then
    if year % 4 = 0 && (year % 100 ≠ 0 || year % 400 = 0) then 29 else 28
  else if month = 4 || month = 6 || month = 9 || month = 11 then 30
  else 31

/-- A date has to be one. -/
def checkDate (year month day : Nat) : Except Fault Unit :=
  if year = 0 then .error (.dateRange .year)
  else if month < 1 || 12 < month then .error (.dateRange .month)
  else if day < 1 || daysOfMonth year month < day then .error (.dateRange .day)
  else .ok ()

/-- A time of day has to be one. -/
def checkTime (hour minute second : Nat) : Except Fault Unit :=
  if 23 < hour then .error (.dateRange .hour)
  else if 59 < minute then .error (.dateRange .minute)
  else if 59 < second then .error (.dateRange .second)
  else .ok ()

/-- The minutes that a time is ahead of universal time, after the time; all of the text has to be
read. -/
def zone? (s : List Char) : Option Int :=
  match s.dropWhile (fun c => c = ' ' || c = '\t') with
  | [] => if s.isEmpty then some 0 else none
  | ['Z'] => some 0
  | sign :: rest =>
    if sign = '+' || sign = '-' then do
      let (hours, rest) ← takeNumber? 1 2 rest
      let minutes ← if rest.isEmpty then some 0 else
        match takeAfter? ':' 2 2 rest with
        | some (minutes, []) => some minutes
        | _ => none
      let ahead : Int := (hours * 60 + minutes : Nat)
      return if sign = '-' then -ahead else ahead
    else none

/-- A point with digits may follow the seconds. -/
def dropFraction (s : List Char) : List Char :=
  match s with
  | '.' :: rest => rest.dropWhile Char.isDigit
  | s => s

/-- What follows the blanks or the letter between a date and a time. -/
def afterDate? (s : List Char) : Option (List Char) :=
  match s with
  | 'T' :: rest | 't' :: rest => some rest
  | c :: rest =>
    if c = ' ' || c = '\t' then some (rest.dropWhile (fun c => c = ' ' || c = '\t')) else none
  | [] => none

/-- A date with a time of day, by so many minutes ahead of universal time, has to be one. -/
def checkDateTime (year month day hour minute second : Nat) (ahead : Int) :
    Except Fault Moment := do
  if 1440 ≤ ahead.natAbs then .error (.farZone ahead)
  checkDate year month day
  checkTime hour minute second
  return .dateTime

/-- A date with a time of day that is the whole text. -/
def dateTime? (s : List Char) : Option (Except Fault Moment) := do
  let (year, s) ← takeNumber? 4 4 s
  let (month, s) ← takeAfter? '-' 1 2 s
  let (day, s) ← takeAfter? '-' 1 2 s
  let s ← afterDate? s
  let (hour, s) ← takeNumber? 1 2 s
  let (minute, s) ← takeAfter? ':' 2 2 s
  let (second, s) ← takeAfter? ':' 2 2 s
  let ahead ← zone? (dropFraction s)
  some (checkDateTime year month day hour minute second ahead)

/-- A date that is the whole text. -/
def date? (s : List Char) : Option (Except Fault Moment) := do
  let (year, s) ← takeNumber? 4 4 s
  let (month, s) ← takeAfter? '-' 2 2 s
  let (day, s) ← takeAfter? '-' 2 2 s
  if s.isEmpty then some ((checkDate year month day).map (fun _ => .date)) else none

/-- The date that a plain scalar writes, if it has the form of one. -/
def moment? (s : List Char) : Form Moment := (date? s).or (dateTime? s)

end SceneScript.Yaml
