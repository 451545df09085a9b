import SceneScript.Text.Match

/-!
# Names in scripts

An identifier starts with an ASCII letter or an underscore and goes on with word characters. A
callee is identifiers joined by points or colons. Both are read as long as they go.
-/

namespace SceneScript.Lua

/-- The identifier at the front of a text, and what follows it. -/
def takeIdentifier? : List Char → Option (List Char × List Char)
  | [] => none
  | c :: s =>
    if Text.isIdentifierStart c then
      some (c :: s.takeWhile Text.isWord, s.dropWhile Text.isWord)
    else none

/-- Whether a text is an identifier. -/
def isIdentifier : List Char → Bool
  | [] => false
  | c :: s => Text.isIdentifierStart c && s.all Text.isWord

/-- How a callee goes on after its first character, and what follows it. A point or a colon
belongs to it when an identifier comes next. -/
def calleeTail : List Char → List Char × List Char
  | [] => ([], [])
  | [c] => if Text.isWord c then ([c], []) else ([], [c])
  | c :: d :: s =>
    if (c = '.' || c = ':') && Text.isIdentifierStart d then
      let (tail, rest) := calleeTail s
      (c :: d :: tail, rest)
    else if Text.isWord c then
      let (tail, rest) := calleeTail (d :: s)
      (c :: tail, rest)
    else ([], c :: d :: s)

/-- The callee at the front of a text, and what follows it. -/
def takeCallee? : List Char → Option (List Char × List Char)
  | [] => none
  | c :: s =>
    if Text.isIdentifierStart c then
      let (tail, rest) := calleeTail s
      some (c :: tail, rest)
    else none

/-- Whether a text is a callee. -/
def isCallee (s : List Char) : Bool :=
  match takeCallee? s with
  | some (_, []) => true
  | _ => false

/-- The rest of a text after blanks and an opening parenthesis; the parenthesis stays. -/
def atParenthesis? (s : List Char) : Option (List Char) :=
  match Text.trimLeft s with
  | '(' :: rest => some ('(' :: rest)
  | _ => none

/-- The callee at the front of a text, when it is called: blanks and an opening parenthesis
follow. -/
def calledName? (s : List Char) : Option (List Char) := do
  let (callee, rest) ← takeCallee? s
  let _ ← atParenthesis? rest
  return callee

end SceneScript.Lua
