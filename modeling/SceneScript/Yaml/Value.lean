import SceneScript.Json.Value

/-!
# Values of YAML

A value is one that JSON has too, a date, a list or a mapping. Of a mapping those members are kept
that stand under texts.
-/

namespace SceneScript.Yaml

/-- A date, perhaps with a time of day. -/
inductive Moment where
  | date
  | dateTime
  deriving DecidableEq, Repr

/-- A value. -/
inductive Value where
  /-- A value that JSON has too. -/
  | json (v : Json)
  /-- A date. -/
  | moment (m : Moment)
  /-- A list. -/
  | list (items : List Value)
  /-- A mapping, as far as its keys are texts. -/
  | mapping (members : List (String × Value))

namespace Value

/-- The kind of a value. -/
def kind : Value → ValueKind
  | json v => v.kind
  | moment .date => .date
  | moment .dateTime => .dateTime
  | list _ => .array
  | mapping _ => .object

/-- The members of a mapping. -/
def members? : Value → Option (List (String × Value))
  | json (.obj members) => some (members.map (fun m => (m.1, json m.2)))
  | mapping members => some members
  | _ => none

/-- A value as a number. -/
def asNumber : Value → Except NumberError Num
  | json v => v.asNumber
  | v => .error (.notNumber v.kind)

/-- A value as a whole number. -/
def asWhole : Value → Except NumberError Int
  | json v => v.asWhole
  | v => .error (.notWholeNumber v.kind)

end Value

end SceneScript.Yaml
