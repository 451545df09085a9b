import SceneScript.Json.Value

/-!
# Writing JSON

A value is written in ASCII, on one line or over several with an indent of two spaces a level.
Other characters are escaped by their UTF-16 units. `Layout` holds the choice between the two
forms.
-/

namespace SceneScript

namespace Json

/-- A UTF-16 unit as an escape. -/
def unitEscape (n : Nat) : List Char := '\\' :: 'u' :: Text.hexPad 4 n

/-- A character inside a JSON string. -/
def writtenChar (c : Char) : List Char :=
  if c = '\x22' || c = '\\' then ['\\', c]
  else if c = '\n' then ['\\', 'n']
  else if c = '\r' then ['\\', 'r']
  else if c = '\t' then ['\\', 't']
  else if c = '\x08' then ['\\', 'b']
  else if c = '\x0C' then ['\\', 'f']
  else if 0x20 ≤ c.toNat && c.toNat < 0x7F then [c]
  else if c.toNat < 0x10000 then unitEscape c.toNat
  else
    let n := c.toNat - 0x10000
    unitEscape (0xD800 + n / 0x400) ++ unitEscape (0xDC00 + n % 0x400)

/-- A text as a JSON string. -/
def writtenString (s : String) : List Char := '\x22' :: s.toList.flatMap writtenChar ++ ['\x22']

/-- A number as JSON, with names for infinities and not-a-number. -/
def writtenNum : Num → List Char
  | .double .nan => "NaN".toList
  | .double (.infinite negative) => if negative then "-Infinity".toList else "Infinity".toList
  | v => v.digits

/-- How a value is laid out: on one line, or on several. -/
inductive Layout where
  | line
  | indented
  deriving DecidableEq

/-- What separates the opening bracket from the first item, at a level. -/
def Layout.break_ : Layout → Nat → List Char
  | .line, _ => []
  | .indented, level => '\n' :: List.replicate (2 * level) ' '

/-- What separates one item from the next, at a level. -/
def Layout.comma : Layout → Nat → List Char
  | .line, _ => [',', ' ']
  | .indented, level => ',' :: Layout.indented.break_ level

mutual

/-- A value as JSON, at a level of nesting, whatever its numbers. -/
def written (layout : Layout) (level : Nat) : Json → List Char
  | .null => "null".toList
  | .bool b => if b then "true".toList else "false".toList
  | .num v => writtenNum v
  | .str s => writtenString s
  | .arr [] => ['[', ']']
  | .arr items =>
    '[' :: layout.break_ (level + 1) ++ writtenItems layout (level + 1) items
      ++ layout.break_ level ++ [']']
  | .obj [] => ['\x7b', '\x7d']
  | .obj members =>
    '\x7b' :: layout.break_ (level + 1) ++ writtenMembers layout (level + 1) members
      ++ layout.break_ level ++ ['\x7d']

/-- Items as JSON, at their level. -/
def writtenItems (layout : Layout) (level : Nat) : List Json → List Char
  | [] => []
  | [item] => written layout level item
  | item :: next :: items =>
    written layout level item ++ layout.comma level ++ writtenItems layout level (next :: items)

/-- Members as JSON, at their level. -/
def writtenMembers (layout : Layout) (level : Nat) : List (String × Json) → List Char
  | [] => []
  | [(name, v)] => writtenString name ++ ':' :: ' ' :: written layout level v
  | (name, v) :: next :: members =>
    writtenString name ++ ':' :: ' ' :: written layout level v
      ++ layout.comma level ++ writtenMembers layout level (next :: members)

end

/-- A value as JSON text, if its numbers can be written. -/
def render (layout : Layout) (v : Json) : Except NumberError String :=
  (v.ifShort (written layout 0 v)).map String.ofList

end Json

end SceneScript
