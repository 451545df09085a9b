import SceneScript.Text.Blank
import SceneScript.Text.Lines

/-!
# Scanning statements

One reader of quotes stands under every scanner: `Mode` says whether a character is code, or stands
inside a string, or is escaped there, and `Mode.next` moves on by one character. On top of it:

* `stripComment` cuts a line at its comment.
* `splitTopLevel` cuts a text at a separator outside strings and brackets, and loses nothing
  (`join_splitTopLevel`).
* `callArguments?` reads the arguments of a call, and what follows its closing parenthesis.
* `statements` are the code statements of a line.
-/

namespace SceneScript.Lua

/-! ## Quotes -/

/-- Where a scanner stands: in code, inside a string, or after a backslash inside one. -/
inductive Mode where
  | code
  | inside (quote : Char)
  | escaped (quote : Char)
  deriving DecidableEq

/-- Whether a character opens a string. -/
def isQuote (c : Char) : Bool := c = '\x22' || c = '\x27'

/-- Where a scanner stands after a character. -/
def Mode.next : Mode → Char → Mode
  | .code, c => if isQuote c then .inside c else .code
  | .inside quote, c =>
    if c = '\\' then .escaped quote else if c = quote then .code else .inside quote
  | .escaped quote, _ => .inside quote

/-! ## Comments -/

/-- A text up to the comment that starts in it. -/
def stripCommentFrom : Mode → List Char → List Char
  | _, [] => []
  | mode, c :: s =>
    if mode = .code ∧ c = '-' ∧ s.head? = some '-' then []
    else c :: stripCommentFrom (mode.next c) s

/-- A line without its comment. -/
def stripComment (s : List Char) : List Char := stripCommentFrom .code s

/-! ## Splitting outside strings and brackets -/

/-- How a character of code changes the depth of brackets. -/
def bracketStep (c : Char) : Int :=
  if c = '(' || c = '[' || c = '\x7b' then 1
  else if c = ')' || c = ']' || c = '\x7d' then -1
  else 0

/-- How a character changes the depth of brackets where a scanner stands. -/
def Mode.bracketStep (mode : Mode) (c : Char) : Int :=
  if mode = .code then Lua.bracketStep c else 0

/-- Whether a character cuts the text: the separator, in code, outside brackets, and neither quote
nor bracket itself. -/
def cuts (separator : Char) (mode : Mode) (depth : Int) (c : Char) : Bool :=
  mode = .code && c = separator && depth = 0 && !isQuote c && Lua.bracketStep c = 0

/-- A character put in front of the first of some parts. -/
def consHead (c : Char) : List (List Char) → List (List Char)
  | [] => [[c]]
  | part :: parts => (c :: part) :: parts

/-- The parts of a text, from where a scanner stands at a depth of brackets. -/
def splitFrom (separator : Char) : Mode → Int → List Char → List (List Char)
  | _, _, [] => [[]]
  | mode, depth, c :: s =>
    if cuts separator mode depth c then [] :: splitFrom separator .code 0 s
    else consHead c (splitFrom separator (mode.next c) (depth + mode.bracketStep c) s)

/-- The parts of a text between the separators that stand outside strings and brackets. -/
def splitTopLevel (separator : Char) (s : List Char) : List (List Char) :=
  splitFrom separator .code 0 s

/-! ## Calls -/

/-- How a character changes the depth of parentheses where a scanner stands. -/
def Mode.parenStep (mode : Mode) (c : Char) : Int :=
  if mode = .code then (if c = '(' then 1 else if c = ')' then -1 else 0) else 0

/-- A text cut at the parenthesis that takes the depth back to zero: what stands before it, and
what follows it. -/
def closing? : Mode → Int → List Char → Option (List Char × List Char)
  | _, _, [] => none
  | mode, depth, c :: s =>
    if mode = .code ∧ c = ')' ∧ depth = 1 then some ([], s)
    else (closing? (mode.next c) (depth + mode.parenStep c) s).map (fun r => (c :: r.1, r.2))

/-- The arguments that stand between two parentheses. -/
def argumentsOf (inner : List Char) : List (List Char) :=
  if Text.isBlankText inner then [] else (splitTopLevel ',' inner).map Text.trim

/-- The arguments of the call whose opening parenthesis is the first character of a text, and what
follows its closing one. -/
def callArguments? (s : List Char) : Option (List (List Char) × List Char) :=
  (closing? .code 0 s).map (fun r => (argumentsOf r.1.tail, r.2))

/-! ## Statements -/

/-- The code statements of a line: tabs count as four blanks, the comment is cut off, semicolons
outside strings and brackets separate. -/
def statements (line : List Char) : List (List Char) :=
  ((splitTopLevel ';' (stripComment (Text.replaceChar '\t' "    ".toList line))).map
    Text.trim).filter (fun s => !s.isEmpty)

/-! ## What splitting keeps -/

theorem splitFrom_ne_nil (separator : Char) (mode : Mode) (depth : Int) (s : List Char) :
    splitFrom separator mode depth s ≠ [] := by
  cases s with
  | nil => simp [splitFrom]
  | cons c s =>
    simp only [splitFrom]
    split
    · simp
    · cases splitFrom separator (mode.next c) (depth + mode.bracketStep c) s <;> simp [consHead]

theorem join_consHead (separator c : Char) {parts : List (List Char)} (h : parts ≠ []) :
    Text.join [separator] (consHead c parts) = c :: Text.join [separator] parts := by
  match parts, h with
  | [part], _ => rfl
  | part :: next :: rest, _ => rfl

theorem join_splitFrom (separator : Char) (mode : Mode) (depth : Int) (s : List Char) :
    Text.join [separator] (splitFrom separator mode depth s) = s := by
  induction s generalizing mode depth with
  | nil => rfl
  | cons c s ih =>
    simp only [splitFrom]
    split
    · next h =>
      have hc : c = separator := by
        simp only [cuts, Bool.and_eq_true, decide_eq_true_eq] at h
        exact h.1.1.1.2
      rw [Text.join_cons (splitFrom_ne_nil _ _ _ _), ih, hc]
      rfl
    · rw [join_consHead _ _ (splitFrom_ne_nil _ _ _ _), ih]

/-- Joining the parts of a text with the separator gives the text back. -/
theorem join_splitTopLevel (separator : Char) (s : List Char) :
    Text.join [separator] (splitTopLevel separator s) = s :=
  join_splitFrom separator .code 0 s

end SceneScript.Lua
