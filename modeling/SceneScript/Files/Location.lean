import SceneScript.Text.Lines

/-!
# Locations

A location is a place in a tree: the names from the top down. The path of a command starts at the
directory in which the command runs, or at the root. It is used as it was given, and then shown less
empty and idle steps; or it is resolved first without a look at the tree, a step up taking the last
name away, and shown by the location that it leads to.
-/

namespace SceneScript.Files

/-- The names from the top of the tree down; the root of absolute paths has the empty name. -/
abbrev Location := List String

/-- A location as a text. -/
def locationText (place : Location) : String :=
  if place = [""] then "/" else "/".intercalate place

/-- The steps of a path. -/
def stepsOf (path : String) : List String := (Text.split '/' path.toList).map String.ofList

/-- Whether a step of a path leads nowhere. -/
def isIdle (step : String) : Bool := step = "" || step = "."

/-- Whether a path starts at the root. -/
def isAbsolute (path : String) : Bool := path.toList.head? = some '/'

/-- The location one step on. -/
def follow (place : Location) (step : String) : Location :=
  if isIdle step then place
  else if step = ".." then (if place = [""] then place else place.dropLast)
  else place ++ [step]

/-- The location to which a path leads from a base. -/
def resolve (base : Location) (path : String) : Location :=
  (stepsOf path).foldl follow (if isAbsolute path then [""] else base)

/-- What stands before the steps of a path: exactly two slashes are kept. -/
def anchorOf (path : String) : String :=
  match path.toList.takeWhile (· = '/') with
  | [] => ""
  | ['/', '/'] => "//"
  | _ => "/"

/-- The locations above one that is reached by some names, from the top down. -/
def aboveFrom (place : Location) : List String → List Location
  | [] => []
  | [_] => []
  | name :: names => (place ++ [name]) :: aboveFrom (place ++ [name]) names

/-- The locations above a location, from the top down. -/
def above (place : Location) : List Location := aboveFrom [] place

/-! ## Targets -/

/-- A path as a command uses it: where it starts, and the steps from there. -/
structure Target where
  /-- What stands before the steps when the path is shown. -/
  anchor : String
  /-- Where the path starts. -/
  start : Location
  /-- The steps, none of them idle. -/
  steps : List String
  /-- Whether the path had to be resolved but cannot be, for a null character in it. -/
  isBroken : Bool
  deriving DecidableEq, Repr

namespace Target

/-- A path that is shown as it was given. -/
def given (base : Location) (path : String) : Target :=
  ⟨anchorOf path, if isAbsolute path then [""] else base,
    (stepsOf path).filter (fun step => !isIdle step), false⟩

/-- The path to a location. -/
def ofLocation (place : Location) : Target :=
  match place with
  | "" :: steps => ⟨"/", [""], steps, false⟩
  | steps => ⟨"", [], steps, false⟩

/-- A path that is resolved, and shown by its location. -/
def resolved (base : Location) (path : String) : Target :=
  { ofLocation (resolve base path) with isBroken := path.toList.contains '\x00' }

/-- A path as messages show it. -/
def shown (path : Target) : String :=
  let shown := path.anchor ++ "/".intercalate path.steps
  if shown.isEmpty then "." else shown

/-- The path to the directory of a path. -/
def parent (path : Target) : Target := { path with steps := path.steps.dropLast }

/-- Whether a path holds a null character, which no name can. -/
def hasNull (path : Target) : Bool := path.isBroken || path.shown.toList.contains '\x00'

/-- The locations on the way of some steps. -/
def placesFrom (place : Location) : List String → List Location
  | [] => [place]
  | step :: steps => place :: placesFrom (follow place step) steps

/-- The locations on the way of a path. -/
def places (path : Target) : List Location := placesFrom path.start path.steps

end Target

end SceneScript.Files
