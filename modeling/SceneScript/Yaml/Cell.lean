/-!
# Characters with their places

A text in YAML is read as a list of cells: characters, each with the place where it stands. A place
is an offset, a line and a column, all counted from zero. A byte order mark takes no column.
-/

namespace SceneScript.Yaml

/-- A place in a text. -/
structure Mark where
  /-- The characters before it. -/
  offset : Nat
  /-- The lines before it. -/
  line : Nat
  /-- The columns before it on its line. -/
  column : Nat
  deriving DecidableEq, Repr

/-- The place where a text begins. -/
def Mark.first : Mark := ⟨0, 0, 0⟩

/-- A character and its place. -/
structure Cell where
  /-- The character. -/
  char : Char
  /-- Its place. -/
  mark : Mark
  deriving DecidableEq, Repr

/-! ## Classes of characters -/

/-- Whether a character ends a line. -/
def isBreak (c : Char) : Bool := c = '\n' || c = '\u0085' || c = '\u2028' || c = '\u2029'

/-- What is kept of a character that ends a line: the separators of lines and paragraphs stay, any
other is a line feed. -/
def keptBreak (c : Char) : Char := if c = '\u2028' || c = '\u2029' then c else '\n'

/-- Whether a character is a blank or a tab. -/
def isGap (c : Char) : Bool := c = ' ' || c = '\t'

/-- Whether a character may stand in a text. -/
def isAcceptable (c : Char) : Bool :=
  let n := c.toNat
  n = 0x09 || n = 0x0A || n = 0x0D || (0x20 ≤ n && n ≤ 0x7E) || n = 0x85
    || (0xA0 ≤ n && n ≤ 0xFFFD) || 0x10000 ≤ n

/-! ## Cells of a text -/

/-- The place after a character. -/
def Mark.after (m : Mark) (c : Char) : Mark :=
  if isBreak c then ⟨m.offset + 1, m.line + 1, 0⟩
  else if c = '\uFEFF' then ⟨m.offset + 1, m.line, m.column⟩
  else ⟨m.offset + 1, m.line, m.column + 1⟩

/-- The place after a sign of one character. -/
def Mark.next (m : Mark) : Mark := ⟨m.offset + 1, m.line, m.column + 1⟩

/-- The cells of a text from a place on. -/
def cellsFrom (m : Mark) : List Char → List Cell
  | [] => []
  | c :: s => ⟨c, m⟩ :: cellsFrom (m.after c) s

/-- The place after a text that begins at a place. -/
def markAfter (m : Mark) (s : List Char) : Mark := s.foldl Mark.after m

/-- The place of the first cell; `last` is the place where the text ends. -/
def markOf (last : Mark) : List Cell → Mark
  | [] => last
  | c :: _ => c.mark

/-- Whether the cells begin with a gap or a break, or are none. -/
def endsWord : List Cell → Bool
  | [] => true
  | c :: _ => isGap c.char || isBreak c.char

/-- Whether the cells begin with three times a character, and a word ends there. -/
def startsTriple (sign : Char) : List Cell → Bool
  | a :: b :: c :: rest => a.char = sign && b.char = sign && c.char = sign && endsWord rest
  | _ => false

/-- Whether the cells begin with what separates documents. -/
def startsSeparator (cells : List Cell) : Bool := startsTriple '-' cells || startsTriple '.' cells

end SceneScript.Yaml
