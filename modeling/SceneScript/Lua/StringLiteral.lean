import SceneScript.Lua.Scan

/-!
# String literals

A text is written between double quotes, with a backslash before backslashes and double quotes and
short escapes for line feed, carriage return and tab. Reading also takes single quotes, and a
backslash before any other character stands for that character.

Main statement: reading what is written gives the text back (`unquote?_quote`).
-/

namespace SceneScript.Lua

/-- A character inside a string literal. -/
def quoteChar (c : Char) : List Char :=
  if c = '\\' || c = '\x22' then ['\\', c]
  else if c = '\n' then ['\\', 'n']
  else if c = '\r' then ['\\', 'r']
  else if c = '\t' then ['\\', 't']
  else [c]

/-- A text as a string literal. -/
def quote (s : List Char) : List Char := '\x22' :: s.flatMap quoteChar ++ ['\x22']

/-- The character that an escaped one stands for. -/
def unescapeChar (c : Char) : Char :=
  if c = 'n' then '\n' else if c = 'r' then '\r' else if c = 't' then '\t' else c

/-- The text that the inside of a string literal stands for. -/
def unescape : List Char → List Char
  | '\\' :: c :: s => unescapeChar c :: unescape s
  | c :: s => c :: unescape s
  | [] => []

/-- The text of a string literal, with blanks around it: something between two equal quotes. -/
def unquote? (token : List Char) : Option (List Char) :=
  match Text.trim token with
  | [] => none
  | q :: rest =>
    if isQuote q && rest.getLast? = some q then some (unescape rest.dropLast) else none

/-! ## Reading back -/

theorem unescape_quoteChar_append (c : Char) (s : List Char) :
    unescape (quoteChar c ++ s) = c :: unescape s := by
  unfold quoteChar
  split
  · next h =>
    simp only [Bool.or_eq_true, decide_eq_true_eq] at h
    rcases h with rfl | rfl <;> simp [unescape, unescapeChar]
  · next h =>
    split
    · next h₁ => subst h₁; simp [unescape, unescapeChar]
    · split
      · next h₁ => subst h₁; simp [unescape, unescapeChar]
      · split
        · next h₁ => subst h₁; simp [unescape, unescapeChar]
        · have hc : c ≠ '\\' := by
            intro e; subst e; simp at h
          simp [unescape, hc]

theorem unescape_flatMap_quoteChar (s : List Char) : unescape (s.flatMap quoteChar) = s := by
  induction s with
  | nil => rfl
  | cons c s ih => rw [List.flatMap_cons, unescape_quoteChar_append, ih]

theorem trim_quote (s : List Char) : Text.trim (quote s) = quote s := by
  have h : Text.isBlank '\x22' = false := by decide
  simp [Text.trim, Text.trimRight, Text.trimLeft, quote, h]

/-- Reading a written string literal gives the text back. -/
theorem unquote?_quote (s : List Char) : unquote? (quote s) = some s := by
  have h : isQuote '\x22' = true := by decide
  rw [unquote?, trim_quote]
  simp [quote, h, unescape_flatMap_quoteChar]

end SceneScript.Lua
