import SceneScript.Number.Basic
import SceneScript.Yaml.Cell

/-!
# What can be wrong with YAML

The causes for which a text is refused, each with the place where it shows, and often with the place
of what was being read. `Fault.message` words a cause for the text of a file.
-/

namespace SceneScript.Yaml

/-- What is being read when a node is not as it has to be. -/
inductive Structure where
  | blockMapping
  | blockList
  | flowMapping
  | flowList
  | blockNode
  | flowNode
  deriving DecidableEq, Repr

/-- A part of a date that is out of range. -/
inductive DatePart where
  | year
  | month
  | day
  | hour
  | minute
  | second
  deriving DecidableEq, Repr

/-- Why a text is refused. -/
inductive Fault where
  /-- A character may not stand in a text. -/
  | unacceptable (c : Char) (offset : Nat)
  /-- A value may not start here. -/
  | valueHere (mark : Mark)
  /-- A list item may not start here. -/
  | itemHere (mark : Mark)
  /-- A key may not start here. -/
  | keyHere (mark : Mark)
  /-- What has to be a key is followed by no colon. -/
  | keyAlone (key mark : Mark)
  /-- No token starts with a character. -/
  | noToken (c : Char) (mark : Mark)
  /-- A quoted scalar has no end. -/
  | openQuote (start mark : Mark)
  /-- A quoted scalar holds what separates documents. -/
  | quotedSeparator (start mark : Mark)
  /-- A numeric escape has too few digits. -/
  | escapeDigits (width : Nat) (found : Option Char) (start mark : Mark)
  /-- An escape is not known. -/
  | unknownEscape (found : Option Char) (start mark : Mark)
  /-- A numeric escape is no character. -/
  | noCharacter (code : Nat)
  /-- A token stands where another has to be. -/
  | unexpected (in_ : Structure) (token : String) (start mark : Mark)
  /-- A token stands where a document has to start. -/
  | noDocument (token : String) (mark : Mark)
  /-- There is a second document. -/
  | secondDocument (first mark : Mark)
  /-- A plain scalar stands for something that is no value. -/
  | noValue (tag : String) (mark : Mark)
  /-- A list or a mapping is a key. -/
  | keyNotScalar (start mark : Mark)
  /-- What is merged into a mapping is no mapping, and no list of any. -/
  | mergeOf (kind : String) (inList : Bool) (start mark : Mark)
  /-- A number has no digits. -/
  | noDigits (base : Nat)
  /-- A number cannot be had. -/
  | number (cause : NumberError)
  /-- A part of a date is out of range. -/
  | dateRange (part : DatePart)
  /-- A time is a day or more away from universal time, by so many minutes. -/
  | farZone (minutes : Int)
  /-- The text uses a part of YAML that configurations are not written in. -/
  | unsupported (mark : Mark)
  deriving DecidableEq, Repr

namespace Fault

/-! ## Words -/

/-- A number in words. -/
def decimal (n : Nat) : String := String.ofList (decimalDigits n)

/-- A character as messages show it, the end of the text as a null character. -/
def shownChar (c? : Option Char) : String := String.ofList (Text.quoted [c?.getD '\x00'])

/-- What is being read, in words. -/
def readingWords : Structure → String
  | .blockMapping => "while parsing a block mapping"
  | .blockList => "while parsing a block collection"
  | .flowMapping => "while parsing a flow mapping"
  | .flowList => "while parsing a flow sequence"
  | .blockNode => "while parsing a block node"
  | .flowNode => "while parsing a flow node"

/-- What is expected, up to what is found. -/
def expectedWords : Structure → String
  | .blockMapping | .blockList => "expected <block end>, but found "
  | .flowMapping => "expected \x27,\x27 or \x27\x7d\x27, but got "
  | .flowList => "expected \x27,\x27 or \x27]\x27, but got "
  | .blockNode | .flowNode => "expected the node content, but found "

/-- The words for a part of a date. -/
def rangeWords : DatePart → String
  | .year => "year 0 is out of range"
  | .month => "month must be in 1..12"
  | .day => "day is out of range for month"
  | .hour => "hour must be in 0..23"
  | .minute => "minute must be in 0..59"
  | .second => "second must be in 0..59"

/-- A span of minutes, as days and the seconds after them. -/
def spanWords (minutes : Int) : String :=
  let days := Int.fdiv minutes 1440
  let seconds := (Int.fmod minutes 1440 * 60).toNat
  let dayText := (if days < 0 then "-" else "") ++ decimal days.natAbs
  "datetime.timedelta(days=" ++ dayText
    ++ (if seconds = 0 then "" else ", seconds=" ++ decimal seconds) ++ ")"

/-- What was being read, and since where. -/
def context? : Fault → Option (String × Option Mark)
  | keyAlone key _ => some ("while scanning a simple key", some key)
  | noToken .. => some ("while scanning for the next token", none)
  | openQuote start _ | quotedSeparator start _ =>
    some ("while scanning a quoted scalar", some start)
  | escapeDigits _ _ start _ | unknownEscape _ start _ =>
    some ("while scanning a double-quoted scalar", some start)
  | unexpected in_ _ start _ => some (readingWords in_, some start)
  | secondDocument first _ => some ("expected a single document in the stream", some first)
  | keyNotScalar start _ | mergeOf _ _ start _ => some ("while constructing a mapping", some start)
  | _ => none

/-- What is wrong. -/
def problem : Fault → String
  | unacceptable c _ =>
    "unacceptable character #x" ++ String.ofList (Text.hexPad 4 c.toNat)
      ++ ": special characters are not allowed"
  | valueHere _ => "mapping values are not allowed here"
  | itemHere _ => "sequence entries are not allowed here"
  | keyHere _ => "mapping keys are not allowed here"
  | keyAlone .. => "could not find expected \x27:\x27"
  | noToken c _ => "found character " ++ shownChar (some c) ++ " that cannot start any token"
  | openQuote .. => "found unexpected end of stream"
  | quotedSeparator .. => "found unexpected document separator"
  | escapeDigits width found _ _ =>
    "expected escape sequence of " ++ decimal width ++ " hexdecimal numbers, but found "
      ++ shownChar found
  | unknownEscape found _ _ => "found unknown escape character " ++ shownChar found
  | noCharacter code =>
    if code < 0x80000000 then "chr() arg not in range(0x110000)"
    else "Python int too large to convert to C int"
  | unexpected in_ token _ _ => expectedWords in_ ++ Text.quotedString token
  | noDocument token _ => "expected \x27<document start>\x27, but found " ++ Text.quotedString token
  | secondDocument .. => "but found another document"
  | noValue tag _ => "could not determine a constructor for the tag " ++ Text.quotedString tag
  | keyNotScalar .. => "found unhashable key"
  | mergeOf kind inList _ _ =>
    "expected a mapping " ++ (if inList then "" else "or list of mappings ")
      ++ "for merging, but found " ++ kind
  | noDigits base => "invalid literal for int() with base " ++ decimal base ++ ": \x27\x27"
  | number cause => cause.message
  | dateRange part => rangeWords part
  | farZone minutes =>
    "offset must be a timedelta strictly between -timedelta(hours=24) and timedelta(hours=24), not "
      ++ spanWords minutes ++ "."
  | unsupported _ => "a part of YAML that configurations are not written in"

/-- Where a fault shows. -/
def mark? : Fault → Option Mark
  | valueHere mark | itemHere mark | keyHere mark | keyAlone _ mark | noToken _ mark
  | openQuote _ mark | quotedSeparator _ mark | escapeDigits _ _ _ mark | unknownEscape _ _ mark
  | unexpected _ _ _ mark | noDocument _ mark | secondDocument _ mark | noValue _ mark
  | keyNotScalar _ mark | mergeOf _ _ _ mark | unsupported mark => some mark
  | unacceptable .. | noCharacter .. | noDigits .. | number .. | dateRange .. | farZone .. => none

/-- A place in a file, on a line of its own. -/
def placeLine (file : String) (m : Mark) : String :=
  "\n  in \x22" ++ file ++ "\x22, line " ++ decimal (m.line + 1) ++ ", column "
    ++ decimal (m.column + 1)

/-- What was being read in a file, on lines of its own; a place that is also that of the fault is
not repeated. -/
def contextLines (file : String) (f : Fault) : String :=
  match f.context? with
  | none => ""
  | some (words, start?) =>
    let place :=
      match start? with
      | none => ""
      | some start =>
        let same := f.mark?.any (fun m => m.line = start.line && m.column = start.column)
        if same then "" else placeLine file start
    words ++ place ++ "\n"

/-- The words for a fault in a file. -/
def message (file : String) (f : Fault) : String :=
  match f with
  | unacceptable _ offset =>
    f.problem ++ "\n  in \x22" ++ file ++ "\x22, position " ++ decimal offset
  | f => contextLines file f ++ f.problem ++ ((f.mark?.map (placeLine file)).getD "")

end Fault

end SceneScript.Yaml
