import SceneScript.Command.Options
import SceneScript.Command.SceneFile

/-!
# The command that validates a scene

It prints a report on a scene file as JSON and can also write the report to a file. The file of the
schema only has to be there and to hold JSON: the rules are those of `Validation.issues`.
-/

namespace SceneScript.Command

/-! ## Reports -/

/-- The outcome of checking a scene file. -/
structure SceneCheck where
  /-- The scene file, as it is shown. -/
  scenePath : String
  /-- The schema file, as it is shown. -/
  schemaPath : String
  /-- What is wrong. -/
  issues : List Validation.Issue
  deriving DecidableEq, Repr

/-- The report of a check, made at a time. -/
def SceneCheck.report (c : SceneCheck) (time : String) : Json :=
  .obj [("schema_version", .str Scene.schemaVersion), ("validated_at", .str time),
    ("overall_status", .str (Validation.status c.issues)), ("scene_path", .str c.scenePath),
    ("schema_path", .str c.schemaPath), ("error_count", .ofInt c.issues.length),
    ("errors", .arr (c.issues.map Validation.Issue.toJson))]

/-! ## The command -/

/-- The arguments of the validating command. -/
structure ValidatorArguments where
  /-- The scene file. -/
  scene : String
  /-- The schema file, unless it is the shipped one. -/
  schema? : Option String
  /-- The file for the report. -/
  reportOut? : Option String
  /-- Whether the printed report is laid out over several lines. -/
  pretty : Bool
  deriving DecidableEq, Repr

namespace ValidatorArguments

/-- The options of the command. -/
def specs : List OptionSpec :=
  [.valued "--scene", .valued "--schema", .valued "--report-out", .flag "--pretty"]

/-- The arguments of a command line. -/
def ofTexts (texts : List String) : Except Refusal ValidatorArguments := do
  let given ← Given.ofTexts specs ["--scene"] texts
  return ⟨given.required "--scene", given.value? "--schema", given.filled? "--report-out",
    (given.value? "--pretty").isSome⟩

/-- The paths that the arguments name. -/
def paths (a : ValidatorArguments) : List String :=
  a.scene :: a.schema?.toList ++ a.reportOut?.toList

/-- The check of the scene file. -/
def check (a : ValidatorArguments) (env : Environment) (t : Files.Tree) :
    Except Failure SceneCheck := do
  let scene := Files.Target.given env.base a.scene
  let schema? := a.schema?.map (Files.Target.given env.base)
  let schemaReadable : Except Failure Unit :=
    match schema? with
    | none => .ok ()
    | some schema => (readJson t schema).map (fun _ => ())
  let issues ← fileIssues t scene schemaReadable
  return ⟨scene.shown, (schema?.map Files.Target.shown).getD env.schemaPath, issues⟩

/-- The words for a failure of the check. -/
def failureLine (f : Failure) : String :=
  match f with
  | .json (.at fault offset line column) =>
    "[scene-validator] invalid schema JSON: "
      ++ (Json.ParseError.at fault offset line column).message ++ "\n"
  | f =>
    (if f.isMissingFile then "[scene-validator] file error: "
      else "[scene-validator] unexpected error: ") ++ f.message ++ "\n"

/-- The report of a check, printed, and written to a file if one is named. Writing may fail. -/
def conclude (a : ValidatorArguments) (env : Environment) (t : Files.Tree) (c : SceneCheck) :
    Except Failure Report := do
  let report := c.report env.time
  let out ← (Json.render (if a.pretty then .indented else .line) report).mapError Failure.number
  let exit := if c.issues.isEmpty then 0 else 1
  match a.reportOut? with
  | none => return ⟨exit, out ++ "\n", "", t⟩
  | some path =>
    match put t (Files.Target.given env.base path) (.ofJson report) with
    | (.ok (), t) => return ⟨exit, out ++ "\n", "", t⟩
    | (.error f, _) => .error f

/-- The command. It fails only where the report cannot be written. -/
def run (a : ValidatorArguments) (env : Environment) (t : Files.Tree) :
    Except Failure Report :=
  match a.check env t with
  | .ok c => a.conclude env t c
  | .error f => .ok ⟨2, "", failureLine f, t⟩

end ValidatorArguments

end SceneScript.Command
