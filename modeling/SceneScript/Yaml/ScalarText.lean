import SceneScript.Text.Character
import SceneScript.Yaml.Fault

/-!
# The text of a scalar

A scalar is plain, or stands between single or double quotes, and may run over several lines. Where
it goes on to another line the break and the blanks around it are folded: into one blank, or into
the further breaks where lines between are empty.

* `takePlain` reads a plain scalar; a colon, a comment or the indentation ends it.
* `takeQuoted` reads a quoted one after its first quote.
-/

namespace SceneScript.Yaml

/-- The breaks between two lines of a scalar, folded: the first one, and those of empty lines. -/
def foldBreaks (first : Char) (further : List Char) : List Char :=
  if keptBreak first ≠ '\n' then keptBreak first :: further
  else if further.isEmpty then [' ']
  else further

/-! ## Plain scalars -/

/-- Whether a plain scalar cannot go on with a cell: at a gap, at a colon that ends a key, and
inside flow collections at their signs. -/
def endsChunk (inFlow : Bool) (c : Char) (rest : List Cell) : Bool :=
  let flowSign (c : Char) : Bool := [',', '[', ']', '\x7b', '\x7d'].contains c
  isGap c || isBreak c || (inFlow && (c = '?' || flowSign c))
    || (c = ':' && (endsWord rest || (inFlow && (rest.head?.any (fun d => flowSign d.char)))))

/-- The cells up to one with which a plain scalar cannot go on, and the rest. -/
def takeChunk (inFlow : Bool) : List Cell → List Char × List Cell
  | [] => ([], [])
  | c :: rest =>
    if endsChunk inFlow c.char rest then ([], c :: rest)
    else
      let (chunk, after) := takeChunk inFlow rest
      (c.char :: chunk, after)

/-- What stands between two chunks of a plain scalar. -/
structure PlainGap where
  /-- What becomes of it in the text. -/
  text : List Char
  /-- What follows. -/
  rest : List Cell
  /-- Whether a line ends in it. -/
  breaksLine : Bool

/-- The breaks of empty lines after a line of a plain scalar, and what follows; nothing where
documents are separated. -/
def emptyLines : List Cell → Option (List Char) × List Cell
  | [] => (some [], [])
  | c :: rest =>
    if c.char = ' ' then emptyLines rest
    else if isBreak c.char then
      if startsSeparator rest then (none, rest)
      else
        let (further?, after) := emptyLines rest
        (further?.map (keptBreak c.char :: ·), after)
    else (some [], c :: rest)

/-- What stands between two chunks at the front of some cells. -/
def takeGap (cells : List Cell) : PlainGap :=
  match cells.dropWhile (fun c => c.char = ' ') with
  | [] => ⟨cells.map Cell.char, [], false⟩
  | c :: rest =>
    if isBreak c.char then
      if startsSeparator rest then ⟨[], rest, true⟩
      else
        match emptyLines rest with
        | (some further, after) => ⟨foldBreaks c.char further, after, true⟩
        | (none, after) => ⟨[], after, true⟩
    else ⟨(cells.takeWhile (fun c => c.char = ' ')).map Cell.char, c :: rest, false⟩

/-- A scalar that was read. -/
structure ScalarRead where
  /-- Its text. -/
  text : List Char
  /-- What follows. -/
  rest : List Cell
  /-- Whether a line ended since its last chunk. -/
  breaksLine : Bool

/-- A plain scalar, in a block that is indented by some columns, with what stands before its next
chunk; `fuel` bounds the number of chunks. -/
def takePlainFrom (last : Mark) (inFlow : Bool) (indent : Nat) :
    Nat → PlainGap → ScalarRead
  | 0, gap => ⟨[], gap.rest, gap.breaksLine⟩
  | fuel + 1, gap =>
    match takeChunk inFlow gap.rest with
    | ([], rest) => ⟨[], rest, gap.breaksLine⟩
    | (chunk, rest) =>
      let next := takeGap rest
      let ends := next.text.isEmpty || next.rest.head?.any (fun c => c.char = '#')
        || (!inFlow && (markOf last next.rest).column < indent)
      if ends then ⟨gap.text ++ chunk, next.rest, next.breaksLine⟩
      else
        let more := takePlainFrom last inFlow indent fuel next
        ⟨gap.text ++ chunk ++ more.text, more.rest, more.breaksLine⟩

/-- The plain scalar at the front of some cells. -/
def takePlain (last : Mark) (inFlow : Bool) (indent : Nat) (cells : List Cell) : ScalarRead :=
  takePlainFrom last inFlow indent cells.length ⟨[], cells, false⟩

/-! ## Quoted scalars -/

/-- The character that an escape of one letter stands for. -/
def escaped? (c : Char) : Option Char :=
  match c with
  | '0' => some '\x00'
  | 'a' => some '\x07'
  | 'b' => some '\x08'
  | 't' => some '\t'
  | 'n' => some '\n'
  | 'v' => some '\x0B'
  | 'f' => some '\x0C'
  | 'r' => some '\r'
  | 'e' => some '\x1B'
  | 'N' => some '\u0085'
  | '_' => some '\u00A0'
  | 'L' => some '\u2028'
  | 'P' => some '\u2029'
  | c => if isGap c || c = '\x22' || c = '/' || c = '\\' then some c else none

/-- The number of hexadecimal digits of a numeric escape. -/
def hexWidth? (c : Char) : Option Nat :=
  if c = 'x' then some 2 else if c = 'u' then some 4 else if c = 'U' then some 8 else none

/-- The number that some hexadecimal digits write, after those of a value, and what follows. -/
def takeHex (start at_ : Mark) (width : Nat) :
    Nat → Nat → List Cell → Except Fault (Nat × List Cell)
  | 0, value, cells => .ok (value, cells)
  | more + 1, value, c :: rest =>
    match Text.hexValue? c.char with
    | some digit => takeHex start at_ width more (value * 16 + digit) rest
    | none => .error (.escapeDigits width (some c.char) start at_)
  | _ + 1, _, [] => .error (.escapeDigits width none start at_)

/-- The character of a code. -/
def charOfCode (code : Nat) : Except Fault Char :=
  if code < 0x110000 then .ok (Char.ofNat code) else .error (.noCharacter code)

/-- The breaks of empty lines after a line of a quoted scalar, and what follows without its blanks.
`atLine` tells whether a line begins here. -/
def quotedLines (start : Mark) (atLine : Bool) :
    List Cell → Except Fault (List Char × List Cell)
  | [] => .ok ([], [])
  | c :: rest =>
    if atLine && startsSeparator (c :: rest) then .error (.quotedSeparator start c.mark)
    else if isGap c.char then quotedLines start false rest
    else if isBreak c.char then do
      let (further, after) ← quotedLines start true rest
      return (keptBreak c.char :: further, after)
    else .ok ([], c :: rest)

/-- A kind of quotes. -/
inductive Quote where
  | single
  | double
  deriving DecidableEq, Repr

/-- The sign of a kind of quotes. -/
def Quote.sign : Quote → Char
  | .single => '\x27'
  | .double => '\x22'

/-- What the escape stands for whose backslash came just before, and what follows it. -/
def takeEscape (last start : Mark) : List Cell → Except Fault (List Char × List Cell)
  | [] => .error (.unknownEscape none start last)
  | c :: rest =>
    match escaped? c.char, hexWidth? c.char with
    | some d, _ => .ok ([d], rest)
    | none, some width => do
      let (code, after) ← takeHex start (markOf last rest) width width 0 rest
      let d ← charOfCode code
      return ([d], after)
    | none, none =>
      if isBreak c.char then quotedLines start true rest
      else .error (.unknownEscape (some c.char) start c.mark)

/-- What a gap inside quotes becomes, and what follows it. -/
def takeQuotedGap (last start : Mark) (cells : List Cell) :
    Except Fault (List Char × List Cell) :=
  match cells.dropWhile (fun c => isGap c.char) with
  | [] => .error (.openQuote start last)
  | c :: rest =>
    if isBreak c.char then do
      let (further, after) ← quotedLines start true rest
      return (foldBreaks c.char further, after)
    else .ok ((cells.takeWhile (fun c => isGap c.char)).map Cell.char, c :: rest)

/-- A part of a quoted scalar, and what follows it; no part at the closing quote, which is left
out of what follows. -/
def takeQuotedPart (quote : Quote) (last start : Mark) (c : Cell) (rest : List Cell) :
    Except Fault (Option (List Char) × List Cell) :=
  if c.char = quote.sign then
    match quote, rest with
    | .single, d :: after =>
      if d.char = quote.sign then .ok (some [d.char], after) else .ok (none, rest)
    | _, _ => .ok (none, rest)
  else if quote = .double && c.char = '\\' then
    (takeEscape last start rest).map (fun r => (some r.1, r.2))
  else if isGap c.char || isBreak c.char then
    (takeQuotedGap last start (c :: rest)).map (fun r => (some r.1, r.2))
  else .ok (some [c.char], rest)

/-- The text of a quoted scalar up to its closing quote, and what follows that; `fuel` bounds the
number of parts. -/
def takeQuotedFrom (quote : Quote) (last start : Mark) :
    Nat → List Cell → Except Fault (List Char × List Cell)
  | 0, _ | _, [] => .error (.openQuote start last)
  | fuel + 1, c :: rest => do
    match ← takeQuotedPart quote last start c rest with
    | (none, after) => return ([], after)
    | (some part, after) =>
      let (more, after) ← takeQuotedFrom quote last start fuel after
      return (part ++ more, after)

/-- The text of the quoted scalar whose first quote stands at a place, and what follows it. -/
def takeQuoted (quote : Quote) (last start : Mark) (cells : List Cell) :
    Except Fault (List Char × List Cell) :=
  takeQuotedFrom quote last start (cells.length + 1) cells

end SceneScript.Yaml
