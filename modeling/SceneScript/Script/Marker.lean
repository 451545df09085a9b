import SceneScript.Element.Basic
import SceneScript.Number.Numeral
import SceneScript.Text.Match
import SceneScript.Text.Percent

/-!
# Markers

A marker is the comment line by which a script remembers which element a block belongs to: a word,
then fields `key=value` without white space. The name is percent-encoded, the size is rounded.

Reading is lenient: fields come in any order, unknown ones are ignored, the last one of a key wins,
and a line that has neither id, nor name, nor known type is no marker. A size of too many digits
is refused.
-/

namespace SceneScript

/-- What a marker says. -/
structure Marker where
  /-- The id of the element. -/
  id? : Option String
  /-- The name of the element. -/
  name? : Option String
  /-- The type of the element, a known one. -/
  type? : Option String
  /-- The width. -/
  w? : Option Int
  /-- The height. -/
  h? : Option Int
  deriving DecidableEq, Repr

namespace Marker

/-- The word that starts a marker. -/
def word : List Char := "--TDGUI".toList

/-! ## Writing -/

/-- The marker of an element. -/
def line (e : Element) : Except NumberError (List Char) := do
  let w ← e.w.roundHalfUp
  let h ← e.h.roundHalfUp
  return word ++ " id=".toList ++ e.id.toList ++ " name=".toList
    ++ Text.Percent.encode e.name.toList ++ " type=".toList ++ e.type.toList
    ++ " w=".toList ++ intDigits w ++ " h=".toList ++ intDigits h

/-! ## Reading -/

/-- Where the reader of fields stands: in a key, or in the value of one. Both are kept in
reverse. -/
inductive FieldState where
  | key (word : List Char)
  | value (key value : List Char)

/-- A field, from its key and its value in reverse. -/
def field (key value : List Char) : String × List Char :=
  (String.ofList key.reverse, value.reverse)

/-- The fields of a text: a word, an equals sign, and what follows up to white space. -/
def fieldsFrom : FieldState → List Char → List (String × List Char)
  | .key _, [] => []
  | .value key value, [] => [field key value]
  | .key word, c :: s =>
    if Text.isWord c then fieldsFrom (.key (c :: word)) s
    else if c = '=' ∧ word ≠ [] then fieldsFrom (.value word []) s
    else fieldsFrom (.key []) s
  | .value key value, c :: s =>
    if Text.isBlank c then field key value :: fieldsFrom (.key []) s
    else fieldsFrom (.value key (c :: value)) s

/-- The fields of a text. -/
def fields (s : List Char) : Table (List Char) := Table.ofList (fieldsFrom (.key []) s)

/-- A field that is there and not empty. -/
def filled? (fields : Table (List Char)) (key : String) : Option (List Char) :=
  match fields.get? key with
  | some [] => none
  | value => value

/-- Digits after an optional minus sign. -/
def signedDigits? (s : List Char) : Option (Bool × List Char) :=
  let (negative, digits) : Bool × List Char :=
    match s with
    | '-' :: t => (true, t)
    | t => (false, t)
  if digits ≠ [] ∧ digits.all Text.isDigit then some (negative, digits) else none

/-- A size field: nothing unless it is a whole number. -/
def size? (fields : Table (List Char)) (key : String) : Except NumberError (Option Int) :=
  match signedDigits? ((fields.get? key).getD []) with
  | none => .ok none
  | some (negative, digits) =>
    if digitLimit < digits.length then .error (.tooManyDigits digits.length)
    else
      let n : Int := Text.natOfDigits digits
      .ok (some (if negative then -n else n))

/-- The marker that some fields make, if they say who the element is. -/
def ofFields (fields : Table (List Char)) : Except NumberError (Option Marker) :=
  let id? := (filled? fields "id").map String.ofList
  let name? := (filled? fields "name").map (fun s => String.ofList (Text.Percent.decode s))
  let type? :=
    ((fields.get? "type").bind (fun s => ElementType.ofName? (String.ofList s))).map
      ElementType.name
  if id?.isNone && name?.isNone && type?.isNone then .ok none
  else do
    let w? ← size? fields "w"
    let h? ← size? fields "h"
    return some ⟨id?, name?, type?, w?, h?⟩

/-- The marker that a line is, if it is one. -/
def read (line : List Char) : Except NumberError (Option Marker) :=
  match Text.afterWord? word (Text.trim line) with
  | none => .ok none
  | some rest => ofFields (fields rest)

end Marker

end SceneScript
