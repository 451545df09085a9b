import SceneScript.Number.Numeral
import SceneScript.Number.Text
import SceneScript.Table

/-!
# JSON values

A value keeps whole numbers and binary64 numbers apart and the members of an object in order. The
names of an object's members are distinct; `Json.object` builds one from any list of members, a
later value replacing an earlier one in its place.

`Json.shown` is how messages show a value, `Json.text` is the value as a text: a string stands for
itself, anything else is shown. A value with a whole number of more than `digitLimit` digits cannot
be shown, nor written as JSON; `Json.ifShort` is where that is decided.
-/

namespace SceneScript

/-- A JSON value. -/
inductive Json where
  | null
  | bool (b : Bool)
  | num (v : Num)
  | str (s : String)
  | arr (items : List Json)
  | obj (members : List (String × Json))

instance : Inhabited Json := ⟨.null⟩

namespace Json

/-- An object of members read from left to right. -/
def object (members : List (String × Json)) : Json := .obj (Entries.ofList members)

/-- A whole number as a value. -/
def ofInt (n : Int) : Json := .num (.int n)

/-- The kind of a value. -/
def kind : Json → ValueKind
  | .null => .null
  | .bool _ => .boolean
  | .num v => v.kind
  | .str _ => .string
  | .arr _ => .array
  | .obj _ => .object

/-- The text that a value is; nothing for any other value. -/
def string? : Json → Option String
  | .str s => some s
  | _ => none

/-- The text that a value is; the empty one for any other value. -/
def stringD (v : Json) : String := v.string?.getD ""

/-- The member of an object under a name; nothing for any other value. -/
def member? : Json → String → Option Json
  | .obj members, name => Entries.get? members name
  | _, _ => none

/-! ## Numbers in a value -/

mutual

/-- The numbers in a value. -/
def numbers : Json → List Num
  | .num n => [n]
  | .arr items => itemNumbers items
  | .obj members => memberNumbers members
  | _ => []

/-- The numbers in the items of an array. -/
def itemNumbers : List Json → List Num
  | [] => []
  | item :: items => numbers item ++ itemNumbers items

/-- The numbers in the members of an object. -/
def memberNumbers : List (String × Json) → List Num
  | [] => []
  | (_, value) :: members => numbers value ++ memberNumbers members

end

/-- Whether every whole number in a value has few enough digits to be written. -/
def isShort (v : Json) : Bool := v.numbers.all Num.isShort

/-- What is written of a value, if its numbers can be written. -/
def ifShort (v : Json) (written : List Char) : Except NumberError (List Char) :=
  if v.isShort then .ok written else .error .tooLong

/-! ## Values as texts -/

mutual

/-- A value in the form of messages, whatever its numbers. -/
def display : Json → List Char
  | .null => "None".toList
  | .bool b => if b then "True".toList else "False".toList
  | .num v => v.digits
  | .str s => Text.quoted s.toList
  | .arr items => '[' :: displayItems items ++ [']']
  | .obj members => '\x7b' :: displayMembers members ++ ['\x7d']

/-- The items of an array in the form of messages. -/
def displayItems : List Json → List Char
  | [] => []
  | [item] => display item
  | item :: next :: items => display item ++ ',' :: ' ' :: displayItems (next :: items)

/-- The members of an object in the form of messages. -/
def displayMembers : List (String × Json) → List Char
  | [] => []
  | [(name, value)] => Text.quoted name.toList ++ ':' :: ' ' :: display value
  | (name, value) :: next :: members =>
    Text.quoted name.toList ++ ':' :: ' ' :: display value
      ++ ',' :: ' ' :: displayMembers (next :: members)

end

/-- A value as messages show it, if it can be shown. -/
def shown (v : Json) : Except NumberError (List Char) := v.ifShort v.display

/-- A value as a text: a string stands for itself, anything else has to be shown. -/
def text : Json → Except NumberError String
  | .str s => .ok s
  | v => v.shown.map String.ofList

/-! ## Equality -/

/-- Where a value was made. A text has one not-a-number, the same wherever it is written; in memory
each not-a-number is a value of its own. -/
inductive Origin where
  | text
  | memory
  deriving DecidableEq, Repr

/-- What equality takes for the same. -/
structure Sameness where
  /-- Where the values were made. -/
  origin : Origin
  /-- Whether truth values are the numbers one and zero. -/
  truthIsNumber : Bool
  deriving DecidableEq, Repr

/-- Whether two numbers are the same. -/
def Sameness.ofNums (same : Sameness) (a b : Num) : Bool :=
  a.eqv b || (same.origin = .text && a.isNaN && b.isNaN)

mutual

/-- Deep equality: numbers by value whatever their kinds, objects whatever the order of their
members. -/
def eqv (same : Sameness) : Json → Json → Bool
  | .null, .null => true
  | .bool a, .bool b => a == b
  | .bool a, .num b => same.truthIsNumber && (Num.ofBool a).eqv b
  | .num a, .bool b => same.truthIsNumber && a.eqv (Num.ofBool b)
  | .num a, .num b => same.ofNums a b
  | .str a, .str b => a == b
  | .arr a, .arr b => eqvItems same a b
  | .obj a, .obj b => a.length == b.length && eqvMembers same a b
  | _, _ => false

/-- Items equal one by one. -/
def eqvItems (same : Sameness) : List Json → List Json → Bool
  | [], [] => true
  | a :: as, b :: bs => eqv same a b && eqvItems same as bs
  | _, _ => false

/-- Every member has an equal one of its name among the others. -/
def eqvMembers (same : Sameness) : List (String × Json) → List (String × Json) → Bool
  | [], _ => true
  | (name, value) :: members, others =>
    (match Entries.get? others name with
      | some other => eqv same value other
      | none => false) && eqvMembers same members others

end

/-- Whether a value is a certain text. -/
def isText (v : Json) (s : String) : Bool :=
  match v with
  | .str t => t == s
  | _ => false

/-! ## Values as numbers

Where a number is asked for, a truth value counts as one or zero and a text is read as a number; a
value of any other kind is refused.
-/

/-- A value as a number; a text is read as binary64. -/
def asNumber : Json → Except NumberError Num
  | .num v => .ok v
  | .bool b => .ok (Num.ofBool b)
  | .str s => (readDouble s.toList).map .double
  | v => .error (.notNumber v.kind)

/-- A value as a whole number: a number toward zero, a text digit by digit. -/
def asWhole : Json → Except NumberError Int
  | .num v => v.truncate
  | .bool b => .ok (if b then 1 else 0)
  | .str s => readWhole s.toList
  | v => .error (.notWholeNumber v.kind)

/-! ## Order

Numbers are in order by size, truth values counting as one and zero, texts by code points, and
arrays by their first items that are not the same. Any other two values have no order.
-/

/-- A value as the number that it is or counts as. -/
def number? : Json → Option Num
  | .num v => some v
  | .bool b => some (Num.ofBool b)
  | _ => none

mutual

/-- Whether a value comes before another, if the two have an order. -/
def before? (origin : Origin) : Json → Json → Option Bool
  | .str a, .str b => some (decide (a < b))
  | .arr as, .arr bs => itemsBefore? origin as bs
  | a, b =>
    match a.number?, b.number? with
    | some x, some y => some (x.lt y)
    | _, _ => none

/-- Whether items come before others: by the first that differ, or because they are fewer. -/
def itemsBefore? (origin : Origin) : List Json → List Json → Option Bool
  | [], bs => some (!bs.isEmpty)
  | _ :: _, [] => some false
  | a :: as, b :: bs =>
    if eqv ⟨origin, true⟩ a b then itemsBefore? origin as bs else before? origin a b

end

end Json

end SceneScript
