import SceneScript.Lua.Name
import SceneScript.Number.Numeral
import SceneScript.Table

/-!
# Numeric arguments

An argument stands for a number when it is a numeral, or an identifier that the script binds to
one. Bindings are gathered from all assignments of a numeral to a name, the last one of a name
winning.
-/

namespace SceneScript.Lua

/-- What a script binds names to. -/
abbrev Bindings := Table Num

/-- The number that an argument stands for. -/
def resolveNumber (bindings : Bindings) (token : List Char) : Option Num :=
  match readNumeral token with
  | some v => some v
  | none =>
    let name := Text.trim token
    if isIdentifier name then bindings.get? (String.ofList name) else none

/-- The name and the number of an assignment, given what follows the word that may stand before
it. -/
def assignment? (s : List Char) : Option (List Char × Num) := do
  let (name, rest) ← takeIdentifier? s
  let rest ← Text.afterChar? '=' (Text.trimLeft rest)
  let numeral ← Numeral.ofText (Text.trimLeft rest)
  return (name, numeral.toNum)

/-- A text without a leading word for a local declaration, if it has one. -/
def afterLocal? (s : List Char) : Option (List Char) :=
  (Text.afterWord? "local".toList s).bind Text.afterBlanks?

/-- The first success of a reader: after the word for a local declaration, or without it. -/
def optionalLocal {α : Type} (read : List Char → Option α) (s : List Char) : Option α :=
  ((afterLocal? s).bind read).or (read s)

/-- The name and the number that a statement binds, if it is an assignment of a numeral. -/
def binding? (statement : List Char) : Option (List Char × Num) :=
  optionalLocal assignment? statement

end SceneScript.Lua
