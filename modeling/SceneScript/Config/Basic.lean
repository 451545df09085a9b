import SceneScript.Yaml.Value

/-!
# Configuration

A configuration holds the least size of an element, the place of new elements, the length of ids,
and the script of a session that has none. `EditorConfig.ofValue` reads one from a value in which
every part may be missing, and accepts only a positive least size and ids of 4 to 32 characters;
`EditorConfig.ofJson` does so for a JSON value.
-/

namespace SceneScript

/-- The configuration of a session. -/
structure EditorConfig where
  /-- The least width and height that resizing gives. -/
  minExtent : Num
  /-- The horizontal place of new elements. -/
  spawnX : Num
  /-- The vertical place of new elements. -/
  spawnY : Num
  /-- The length of new ids. -/
  idLength : Int
  /-- The script of a session that is given none. -/
  placeholder : String

/-- The configuration that holds where nothing else is said. -/
def EditorConfig.default : EditorConfig := ⟨4, 100, 100, 6, "-- code will appear here"⟩

instance : Inhabited EditorConfig := ⟨EditorConfig.default⟩

/-! ## What can go wrong -/

/-- Why a value is no configuration. -/
inductive ConfigError where
  /-- The value is no object. -/
  | rootNotObject
  /-- A section of it is no object. -/
  | sectionNotObject (section_ : String)
  /-- A field is no number. -/
  | notNumeric (cause : NumberError)
  /-- A field is a number out of range. -/
  | overflow (cause : NumberError)
  /-- The placeholder is no text. -/
  | placeholderNotText
  /-- The least size is not positive. -/
  | extentNotPositive
  /-- The length of ids is out of bounds. -/
  | idLengthOutOfBounds
  deriving DecidableEq, Repr

/-- The words for an error. -/
def ConfigError.message : ConfigError → String
  | .rootNotObject => "editor config root must be an object"
  | .sectionNotObject name => name ++ " must be an object"
  | .notNumeric cause => "invalid numeric config field: " ++ cause.message
  | .overflow cause => cause.message
  | .placeholderNotText => "script.placeholder_code must be a string"
  | .extentNotPositive => "geometry.min_extent must be > 0"
  | .idLengthOutOfBounds => "ids.length must be between 4 and 32"

/-! ## Loading -/

namespace EditorConfig

/-- A section of a mapping; an absent one is empty. -/
def section? (members : List (String × Yaml.Value)) (key name : String) :
    Except ConfigError (List (String × Yaml.Value)) :=
  match Entries.get? members key with
  | none => .ok []
  | some v =>
    match v.members? with
    | some section_ => .ok section_
    | none => .error (.sectionNotObject name)

/-- The outcome of a conversion as one of loading. -/
def converted {α : Type} : Except NumberError α → Except ConfigError α
  | .ok a => .ok a
  | .error e => .error (if e.isOverflow then .overflow e else .notNumeric e)

/-- A field as a binary64 number. -/
def double (members : List (String × Yaml.Value)) (key : String) (default : Num) :
    Except ConfigError Num :=
  converted do
    let v ← ((Entries.get? members key).getD (.json (.num default))).asNumber
    return .double (← v.toDouble)

/-- A field as a whole number. -/
def whole (members : List (String × Yaml.Value)) (key : String) (default : Int) :
    Except ConfigError Int :=
  converted ((Entries.get? members key).getD (.json (.ofInt default))).asWhole

/-- A configuration whose fields are within bounds, or why they are not. -/
def checked (config : EditorConfig) : Except ConfigError EditorConfig :=
  if config.minExtent.le 0 then .error .extentNotPositive
  else if 4 ≤ config.idLength ∧ config.idLength ≤ 32 then .ok config
  else .error .idLengthOutOfBounds

/-- The placeholder among some members; where there is none, the default one. -/
def placeholderIn (members : List (String × Yaml.Value)) : Except ConfigError String :=
  match Entries.get? members "placeholder_code" with
  | none => .ok default.placeholder
  | some (.json (.str placeholder)) => .ok placeholder
  | some _ => .error .placeholderNotText

/-- A configuration from a value. -/
def ofValue (v : Yaml.Value) : Except ConfigError EditorConfig :=
  match v.members? with
  | none => .error .rootNotObject
  | some members => do
    let geometry ← section? members "geometry" "geometry"
    let ids ← section? members "ids" "ids"
    let script ← section? members "script" "script"
    let spawn ← section? geometry "spawn" "geometry.spawn"
    let minExtent ← double geometry "min_extent" default.minExtent
    let spawnX ← double spawn "x" default.spawnX
    let spawnY ← double spawn "y" default.spawnY
    let idLength ← whole ids "length" default.idLength
    let placeholder ← placeholderIn script
    checked ⟨minExtent, spawnX, spawnY, idLength, placeholder⟩

/-- A configuration from a JSON value. -/
def ofJson (v : Json) : Except ConfigError EditorConfig := ofValue (.json v)

/-- The configuration that is shipped: the default with binary64 numbers. -/
def shipped : EditorConfig :=
  ⟨.double (.ofInt 4), .double (.ofInt 100), .double (.ofInt 100), 6, default.placeholder⟩

end EditorConfig

end SceneScript
