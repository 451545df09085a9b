import SceneScript.Json.Value
import SceneScript.Text.Character
import SceneScript.Text.Match

/-!
# Reading JSON

A reader over the characters of a text. It accepts the names of infinity and not-a-number as
values, keeps whole numbers and binary64 numbers apart, and lets a later member of an object
replace an earlier one of the same name in its place.

A failure carries the rest of the text at which it arose; `Json.parse` turns that into an offset,
a line and a column. Numbers with more digits than are read are refused without a position.

A text is a sequence of characters here, so a surrogate without its partner, which an escape can
write, has no place in one. Where such an escape is read, reading ends, and goes on with another
escape in its place only to see what is wrong behind it (`placed`). If nothing is, the failure is
`unpairedSurrogate`, which does not say that the text is no JSON, but that its value is beyond what
is modelled.
-/

namespace SceneScript

namespace Json

/-! ## Failures -/

/-- What is wrong at a place of a text. -/
inductive Fault where
  | byteOrderMark
  | expectingValue
  | expectingName
  | expectingColon
  | expectingComma
  | extraData
  | unterminatedString
  | invalidControl
  | invalidEscape
  | invalidUnicodeEscape
  deriving DecidableEq, Repr

/-- The words for a fault. -/
def Fault.message : Fault → String
  | .byteOrderMark => "Unexpected UTF-8 BOM (decode using utf-8-sig)"
  | .expectingValue => "Expecting value"
  | .expectingName => "Expecting property name enclosed in double quotes"
  | .expectingColon => "Expecting \x27:\x27 delimiter"
  | .expectingComma => "Expecting \x27,\x27 delimiter"
  | .extraData => "Extra data"
  | .unterminatedString => "Unterminated string starting at"
  | .invalidControl => "Invalid control character at"
  | .invalidEscape => "Invalid \\escape"
  | .invalidUnicodeEscape => "Invalid \\uXXXX escape"

/-- A failure while reading: a fault and the rest of the text at it, a number too long, or a
surrogate that is no character and the rest of the text behind its escape. -/
inductive Failure where
  | at (fault : Fault) (rest : List Char)
  | tooManyDigits (count : Nat)
  | unpairedSurrogate (rest : List Char)

/-! ## White space -/

/-- White space between tokens. -/
def isSpace (c : Char) : Bool := c = ' ' || c = '\t' || c = '\n' || c = '\r'

/-- A text without the white space at its front. -/
def skipSpace (s : List Char) : List Char := s.dropWhile isSpace

/-! ## Numbers -/

/-- The ASCII digits at the front of a text, and the rest. -/
def takeAsciiDigits (s : List Char) : List Char × List Char :=
  (s.takeWhile Char.isDigit, s.dropWhile Char.isDigit)

/-- The digits of a whole part: one zero, or digits that do not start with one. -/
def takeWhole : List Char → Option (List Char × List Char)
  | '0' :: s => some (['0'], s)
  | c :: s => if c.isDigit then some (takeAsciiDigits (c :: s)) else none
  | [] => none

/-- A fraction, if a point with digits follows. -/
def takeFraction? : List Char → Option (List Char × List Char)
  | '.' :: s =>
    let (ds, rest) := takeAsciiDigits s
    if ds.isEmpty then none else some (ds, rest)
  | _ => none

/-- A signed run of digits, if there is one. -/
def takeSigned? (s : List Char) : Option (Int × List Char) :=
  let (negative, s) : Bool × List Char :=
    match s with
    | '-' :: t => (true, t)
    | '+' :: t => (false, t)
    | t => (false, t)
  let (ds, rest) := takeAsciiDigits s
  if ds.isEmpty then none
  else
    let n : Int := Text.natOfDigits ds
    some (if negative then -n else n, rest)

/-- An exponent, if its letter with digits follows. -/
def takeExponent? : List Char → Option (Int × List Char)
  | [] => none
  | c :: s => if c = 'e' || c = 'E' then takeSigned? s else none

/-- A number after its sign, if one starts here. -/
def unsignedNumber (negative : Bool) (s : List Char) : Option (Except Failure (Num × List Char)) :=
  (takeWhole s).map fun (whole, s) =>
    let fraction := takeFraction? s
    let s := (fraction.map (·.2)).getD s
    let exponent := takeExponent? s
    let s := (exponent.map (·.2)).getD s
    if fraction.isNone && exponent.isNone then
      if digitLimit < whole.length then .error (.tooManyDigits whole.length)
      else
        let n : Int := Text.natOfDigits whole
        .ok (.int (if negative then -n else n), s)
    else
      let digits := (fraction.map (·.1)).getD []
      .ok (.double (Binary64.ofDecimal negative (Text.natOfDigits (whole ++ digits))
        ((exponent.map (·.1)).getD 0 - digits.length)), s)

/-- The longest number at the front of a text, if one starts here. -/
def number : List Char → Option (Except Failure (Num × List Char))
  | '-' :: s => unsignedNumber true s
  | s => unsignedNumber false s

/-! ## Strings -/

/-- The value of four hexadecimal digits. -/
def hex4? (a b c d : Char) : Option Nat := do
  let a ← Text.hexValue? a
  let b ← Text.hexValue? b
  let c ← Text.hexValue? c
  let d ← Text.hexValue? d
  return ((a * 16 + b) * 16 + c) * 16 + d

/-- The character of a short escape. -/
def shortEscape? (c : Char) : Option Char :=
  if c = '\x22' || c = '\\' || c = '/' then some c
  else if c = 'b' then some '\x08'
  else if c = 'f' then some '\x0C'
  else if c = 'n' then some '\n'
  else if c = 'r' then some '\r'
  else if c = 't' then some '\t'
  else none

/-- The character of a code point, if it has one, given the text behind its escape. -/
def scalar (n : Nat) (rest : List Char) : Except Failure Char :=
  if n.isValidChar then .ok (Char.ofNat n) else .error (.unpairedSurrogate rest)

/-- The code point of a high and a low surrogate. -/
def joinSurrogates (high low : Nat) : Nat := 0x10000 + (high - 0xD800) * 0x400 + (low - 0xDC00)

/-- What four hexadecimal digits and the text after them stand for: a character, and whether it
takes a second escape of twelve characters in all. A high surrogate looks for a low one. -/
def escaped (n : Nat) (rest : List Char) : Except Failure (Char × Bool) :=
  match rest with
  | '\\' :: 'u' :: a :: b :: c :: d :: _ :: _ =>
    if 0xD800 ≤ n ∧ n ≤ 0xDBFF then
      match hex4? a b c d with
      | none => .error (.at .invalidUnicodeEscape rest.tail)
      | some m =>
        if 0xDC00 ≤ m ∧ m ≤ 0xDFFF then (scalar (joinSurrogates n m) rest).map (·, true)
        else (scalar n rest).map (·, false)
    else (scalar n rest).map (·, false)
  | _ => (scalar n rest).map (·, false)

/-- The characters of a string up to its closing quote, and the rest; `opening` is the text from
the opening quote on. -/
def stringBody (opening : List Char) : Nat → List Char → Except Failure (List Char × List Char)
  | 0, _ => .error (.at .unterminatedString opening)
  | _ + 1, [] => .error (.at .unterminatedString opening)
  | fuel + 1, c :: s =>
    if c = '\x22' then .ok ([], s)
    else if c = '\\' then
      match s with
      | [] => .error (.at .unterminatedString opening)
      | 'u' :: t =>
        match t with
        | a :: b :: d :: e :: next :: rest =>
          match hex4? a b d e with
          | none => .error (.at .invalidUnicodeEscape s)
          | some n => do
            let (ch, pair) ← escaped n (next :: rest)
            let after := if pair then (next :: rest).drop 6 else next :: rest
            let (body, after) ← stringBody opening fuel after
            return (ch :: body, after)
        | _ => .error (.at .invalidUnicodeEscape s)
      | e :: t =>
        match shortEscape? e with
        | none => .error (.at .invalidEscape (c :: s))
        | some ch => do
          let (body, rest) ← stringBody opening fuel t
          return (ch :: body, rest)
    else if c.toNat < 0x20 then .error (.at .invalidControl (c :: s))
    else do
      let (body, rest) ← stringBody opening fuel s
      return (c :: body, rest)

/-- A string whose opening quote is the first character of the text. -/
def string (s : List Char) : Except Failure (String × List Char) := do
  let (body, rest) ← stringBody s s.length s.tail
  return (String.ofList body, rest)

/-! ## Values -/

mutual

/-- The value at the front of a text. -/
def value : Nat → List Char → Except Failure (Json × List Char)
  | 0, s => .error (.at .expectingValue s)
  | fuel + 1, s =>
    match s with
    | [] => .error (.at .expectingValue s)
    | c :: rest =>
      if c = '\x22' then (string s).map (fun (t, rest) => (.str t, rest))
      else if c = '[' then
        match skipSpace rest with
        | ']' :: after => .ok (.arr [], after)
        | start => (items fuel start).map (fun (vs, rest) => (.arr vs, rest))
      else if c = '\x7b' then
        match skipSpace rest with
        | '\x7d' :: after => .ok (.obj [], after)
        | start => (members fuel start).map (fun (ms, rest) => (.object ms, rest))
      else if let some after := Text.afterWord? "null".toList s then .ok (.null, after)
      else if let some after := Text.afterWord? "true".toList s then .ok (.bool true, after)
      else if let some after := Text.afterWord? "false".toList s then .ok (.bool false, after)
      else if let some after := Text.afterWord? "NaN".toList s then .ok (.num (.double .nan), after)
      else if let some after := Text.afterWord? "Infinity".toList s then
        .ok (.num (.double (.infinite false)), after)
      else if let some after := Text.afterWord? "-Infinity".toList s then
        .ok (.num (.double (.infinite true)), after)
      else
        match number s with
        | some r => r.map (fun (v, rest) => (.num v, rest))
        | none => .error (.at .expectingValue s)

/-- The items of an array, from the first one to the closing bracket. -/
def items : Nat → List Char → Except Failure (List Json × List Char)
  | 0, s => .error (.at .expectingValue s)
  | fuel + 1, s => do
    let (v, rest) ← value fuel s
    match skipSpace rest with
    | ']' :: after => return ([v], after)
    | ',' :: after =>
      let (vs, rest) ← items fuel (skipSpace after)
      return (v :: vs, rest)
    | other => .error (.at .expectingComma other)

/-- The members of an object, from the first name to the closing brace. -/
def members : Nat → List Char → Except Failure (List (String × Json) × List Char)
  | 0, s => .error (.at .expectingName s)
  | fuel + 1, s =>
    match s with
    | '\x22' :: _ => do
      let (name, rest) ← string s
      match skipSpace rest with
      | ':' :: after =>
        let (v, rest) ← value fuel (skipSpace after)
        match skipSpace rest with
        | '\x7d' :: after => return ([(name, v)], after)
        | ',' :: after =>
          let (ms, rest) ← members fuel (skipSpace after)
          return ((name, v) :: ms, rest)
        | other => .error (.at .expectingComma other)
      | other => .error (.at .expectingColon other)
    | _ => .error (.at .expectingName s)

end

/-! ## Whole texts -/

/-- Why a text is not read: a fault with its offset, line and column, a number too long, or a
surrogate that is no character. -/
inductive ParseError where
  | at (fault : Fault) (offset line column : Nat)
  | tooManyDigits (count : Nat)
  | unpairedSurrogate
  deriving DecidableEq, Repr

/-- The words for an error. -/
def ParseError.message : ParseError → String
  | .at fault offset line column =>
    fault.message ++ ": line " ++ String.ofList (decimalDigits line) ++ " column "
      ++ String.ofList (decimalDigits column) ++ " (char " ++ String.ofList (decimalDigits offset)
      ++ ")"
  | .tooManyDigits count => (NumberError.tooManyDigits count).message
  | .unpairedSurrogate => "unpaired surrogate in a string"

/-- A fault placed at an offset of a text: its line, and its column in that line. -/
def locate (text : List Char) (fault : Fault) (offset : Nat) : ParseError :=
  let before := text.take offset
  let line := before.count '\n' + 1
  let column := (before.reverse.takeWhile (· ≠ '\n')).length + 1
  .at fault offset line column

/-- The value that a text writes. -/
def whole (text : List Char) : Except Failure Json := do
  let (v, rest) ← value (2 * text.length + 2) (skipSpace text)
  match skipSpace rest with
  | [] => return v
  | extra => .error (.at .extraData extra)

/-- A text with the four digits in front of the rest of it replaced by those of a character. -/
def mended (text rest : List Char) : List Char :=
  text.take (text.length - rest.length - 4) ++ "FFFD".toList ++ rest

/-- A failure as an error about the whole text. It is a surrogate only if there is nothing else. -/
def placed (text : List Char) : Nat → Failure → ParseError
  | _, .at fault rest => locate text fault (text.length - rest.length)
  | _, .tooManyDigits count => .tooManyDigits count
  | 0, .unpairedSurrogate _ => .unpairedSurrogate
  | fuel + 1, .unpairedSurrogate rest =>
    match whole (mended text rest) with
    | .ok _ => .unpairedSurrogate
    | .error e => placed (mended text rest) fuel e

/-- The value that a text writes, or what is wrong with the text. -/
def parse (text : List Char) : Except ParseError Json :=
  match text with
  | '\uFEFF' :: _ => .error (locate text .byteOrderMark 0)
  | _ => (whole text).mapError (placed text text.length)

end Json

end SceneScript
