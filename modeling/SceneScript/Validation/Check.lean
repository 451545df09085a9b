import SceneScript.Json.Value
import SceneScript.Sorting
import SceneScript.Text.Blank
import SceneScript.Text.Lines
import SceneScript.Text.Match

/-!
# Checks of a document

A check looks at a value and gives findings, each with the path to the part that it is about, a
message, and the keyword of the rule that is broken. A message may show a value, and there is none
for a value that cannot be shown. Checks are put together from small ones: each
of these concerns one kind of value and lets every other pass, so that a wrong kind is found once,
by the check of the kind.
-/

namespace SceneScript.Validation

/-! ## Paths -/

/-- A step into a value. -/
inductive PathPart where
  /-- To the member of a name. -/
  | key (name : String)
  /-- To the item at an index. -/
  | index (n : Nat)
  deriving DecidableEq, Repr

namespace PathPart

/-- A step as a path shows it. -/
def shown : PathPart → String
  | .key name => "." ++ name
  | .index n => "[" ++ String.ofList (decimalDigits n) ++ "]"

/-- Whether a step comes before another: names by code points, indices by size. -/
def before : PathPart → PathPart → Bool
  | .key a, .key b => a < b
  | .index a, .index b => a < b
  | .key _, .index _ => true
  | .index _, .key _ => false

end PathPart

/-- The steps into a document. -/
abbrev Path := List PathPart

namespace Path

/-- A path as findings show it. -/
def shown (p : Path) : String := "$" ++ String.join (p.map PathPart.shown)

/-- Whether a path comes before another: step by step, the shorter one first. -/
def before : Path → Path → Bool
  | _, [] => false
  | [], _ :: _ => true
  | a :: as, b :: bs => a.before b || (a = b && before as bs)

end Path

/-! ## Findings -/

/-- A broken rule. -/
structure Finding where
  /-- The part of the document that it is about. -/
  path : Path
  /-- What is wrong, if it can be said. -/
  message : Except NumberError String
  /-- The keyword of the rule. -/
  keyword : String

/-- A finding in a part of a value as one in the value. -/
def Finding.within (part : PathPart) (f : Finding) : Finding := { f with path := part :: f.path }

/-- Findings in the order of their paths; those of one path stay as they are. -/
def inPathOrder (findings : List Finding) : List Finding :=
  findings.mergeSort (fun a b => !b.path.before a.path)

/-! ## Checks -/

/-- A check of a value. -/
abbrev Check := Json → List Finding

namespace Check

/-- A finding about the whole value. -/
def found (message : Except NumberError (List Char)) (keyword : String) : List Finding :=
  [⟨[], message.map String.ofList, keyword⟩]

/-- The message that shows a value and says something of it. -/
def about (v : Json) (words : List Char) : Except NumberError (List Char) :=
  v.shown.map (· ++ words)

/-- Checks one after the other. -/
def all (checks : List Check) : Check := fun v => checks.flatMap (fun check => check v)

/-- The type of a value. -/
inductive ValueType where
  | object
  | array
  | string
  | number
  | null
  deriving DecidableEq, Repr

/-- The word for a type. -/
def ValueType.word : ValueType → String
  | .object => "object"
  | .array => "array"
  | .string => "string"
  | .number => "number"
  | .null => "null"

/-- The type of a kind of values; truth values and dates have none of these. -/
def ValueType.ofKind? : ValueKind → Option ValueType
  | .null => some .null
  | .boolean | .date | .dateTime => none
  | .integer | .double => some .number
  | .string => some .string
  | .array => some .array
  | .object => some .object

/-- Texts with commas between them. -/
def listed (texts : List (List Char)) : List Char := Text.join ", ".toList texts

/-- The value is of one of some types. -/
def ofTypes (types : List ValueType) : Check := fun v =>
  match ValueType.ofKind? v.kind with
  | some t => if types.contains t then [] else wrong v
  | none => wrong v
where
  wrong (v : Json) : List Finding :=
    found (about v (" is not of type ".toList
      ++ listed (types.map (fun t => Text.quoted t.word.toList)))) "type"

/-- An object has some members. -/
def required (names : List String) : Check := fun v =>
  match v with
  | .obj members =>
    names.flatMap fun name =>
      match Entries.get? members name with
      | some _ => []
      | none => found (.ok (Text.quoted name.toList ++ " is a required property".toList)) "required"
  | _ => []

/-- The members of an object that are not among some. -/
def extras (known : List String) (members : List (String × Json)) : List (String × Json) :=
  members.filter (fun m => !known.contains m.1)

/-- The message about members that may not be there. -/
def extrasMessage (names : List String) : List Char :=
  let sorted := names.mergeSort (fun a b => !decide (b < a))
  "Additional properties are not allowed (".toList
    ++ listed (sorted.map (fun name => Text.quoted name.toList))
    ++ (if names.length = 1 then " was" else " were").toList ++ " unexpected)".toList

/-- An object has no members but some. -/
def closed (known : List String) : Check := fun v =>
  match v with
  | .obj members =>
    match (extras known members).map Prod.fst with
    | [] => []
    | names => found (.ok (extrasMessage names)) "additionalProperties"
  | _ => []

/-- Every member of an object passes a check. -/
def members (check : Check) : Check := fun v =>
  match v with
  | .obj members => members.flatMap (fun m => (check m.2).map (Finding.within (.key m.1)))
  | _ => []

/-- The members of an object pass the checks of their names. -/
def properties (fields : List (String × Check)) : Check := fun v =>
  match v with
  | .obj members =>
    fields.flatMap fun field =>
      match Entries.get? members field.1 with
      | some member => (field.2 member).map (Finding.within (.key field.1))
      | none => []
  | _ => []

/-- Findings about items, the first of them with an index. -/
def itemsFrom (check : Check) : Nat → List Json → List Finding
  | _, [] => []
  | n, v :: vs => (check v).map (Finding.within (.index n)) ++ itemsFrom check (n + 1) vs

/-- Every item of an array passes a check. -/
def items (check : Check) : Check := fun v =>
  match v with
  | .arr vs => itemsFrom check 0 vs
  | _ => []

/-- Whether no two of some values are equal. -/
def distinct (same : Json.Sameness) : List Json → Bool
  | [] => true
  | v :: vs => !vs.any (fun w => v.eqv same w) && distinct same vs

/-- Whether no two neighbours among some values are equal. -/
def distinctNeighbours (same : Json.Sameness) : List Json → Bool
  | v :: w :: vs => !v.eqv same w && distinctNeighbours same (w :: vs)
  | _ => true

/-- Whether an item comes before another; a truth value has no order among items. -/
def itemBefore? (origin : Json.Origin) (a b : Json) : Option Bool :=
  match a, b with
  | .bool _, _ | _, .bool _ => none
  | a, b => a.before? origin b

/-- No two items of an array are equal; a truth value equals no number. Items that have an order are
sorted, and then only neighbours are looked at. -/
def unique (origin : Json.Origin) : Check := fun v =>
  match v with
  | .arr vs =>
    let passes :=
      match Sorting.sort? (itemBefore? origin) vs with
      | some sorted => distinctNeighbours ⟨origin, false⟩ sorted
      | none => distinct ⟨origin, false⟩ vs
    if passes then []
    else found (about v " has non-unique elements".toList) "uniqueItems"
  | _ => []

/-- The value is a certain text. -/
def constant (s : String) : Check := fun v =>
  if v.isText s then [] else found (.ok (Text.quoted s.toList ++ " was expected".toList)) "const"

/-- The value is one of some texts. -/
def oneOf (texts : List String) : Check := fun v =>
  if texts.any v.isText then []
  else found (about v (" is not one of ".toList ++ (Json.arr (texts.map .str)).display)) "enum"

/-- A text is not empty. -/
def nonEmpty : Check := fun v =>
  match v with
  | .str s =>
    if s.isEmpty then found (about v " should be non-empty".toList) "minLength" else []
  | _ => []

/-- A text is accepted, or found not to match a pattern. -/
def pattern (pattern : String) (accepts : List Char → Bool) : Check := fun v =>
  match v with
  | .str s =>
    if accepts s.toList then []
    else found (about v (" does not match ".toList ++ Text.quoted pattern.toList)) "pattern"
  | _ => []

/-- A text has no white space, save for one line break at its end, and is not empty. -/
def solid : Check :=
  pattern "^\\S+$" fun s =>
    !(s.takeWhile (fun c => !Text.isBlank c)).isEmpty
      && Text.atEnd (s.dropWhile (fun c => !Text.isBlank c))

/-- A text has a character that is not white space. -/
def visible : Check := pattern "\\S" fun s => !Text.isBlankText s

/-- A number is not negative. -/
def nonNegative : Check := fun v =>
  match v with
  | .num n =>
    if n.lt 0 then found (about v " is less than the minimum of 0".toList) "minimum" else []
  | _ => []

end Check

end SceneScript.Validation
