import SceneScript.Command.Options
import SceneScript.Command.SceneFile

/-!
# The commands on scenes and scripts

`generate` writes the whole script of a scene, `regenerate` patches a script for a scene, `ingest`
reads a script into a scene. A command first reads and computes everything: that gives its `Plan`,
either to refuse or to write some files. The files are then written one after the other.
-/

namespace SceneScript.Command

/-! ## Arguments -/

/-- What is to be done. -/
inductive Task where
  /-- The whole script of a scene is written. -/
  | generate (scene out : String)
  /-- A script is patched for a scene. -/
  | regenerate (scene script out : String)
  /-- A script is read into a scene. -/
  | ingest (script out : String) (scene? decisionsOut? regenerateOut? : Option String)
  deriving DecidableEq, Repr

/-- The paths that a task names. -/
def Task.paths : Task → List String
  | .generate scene out => [scene, out]
  | .regenerate scene script out => [scene, script, out]
  | .ingest script out scene? decisionsOut? regenerateOut? =>
    script :: out :: scene?.toList ++ decisionsOut?.toList ++ regenerateOut?.toList

/-- The task of a name, with the texts that follow it. -/
def Task.ofTexts (name : String) (texts : List String) : Except Refusal Task :=
  if name = "generate" then do
    let given ← Given.ofTexts [.valued "--scene", .valued "--out"] ["--scene", "--out"] texts
    return .generate (given.required "--scene") (given.required "--out")
  else if name = "regenerate" then do
    let given ← Given.ofTexts [.valued "--scene", .valued "--script", .valued "--out"]
      ["--scene", "--script", "--out"] texts
    return .regenerate (given.required "--scene") (given.required "--script")
      (given.required "--out")
  else if name = "ingest" then do
    let given ← Given.ofTexts
      [.valued "--script", .valued "--scene", .valued "--out", .valued "--decisions-out",
        .valued "--regenerate-out"] ["--script", "--out"] texts
    return .ingest (given.required "--script") (given.required "--out") (given.filled? "--scene")
      (given.filled? "--decisions-out") (given.filled? "--regenerate-out")
  else .error .usage

/-- The arguments of a command. -/
structure RunnerArguments where
  /-- The file of the configuration, unless it is the shipped one. -/
  config? : Option String
  /-- What is to be done. -/
  task : Task
  deriving DecidableEq, Repr

namespace RunnerArguments

/-- The options in front of the name of a command. -/
def specs : List OptionSpec := [.help, .valued "--config"]

/-- The arguments of a command line, given the configuration named so far. -/
def ofTextsFrom (config? : Option String) : List String → Except Refusal RunnerArguments
  | [] => .error .usage
  | s :: rest =>
    if s = "--" then .error .usage
    else
      match Word.ofText specs s with
      | .error e => .error e
      | .ok (.value name) => (Task.ofTexts name rest).map (fun task => ⟨config?, task⟩)
      | .ok (.option spec (some value)) =>
        if spec.takesValue then ofTextsFrom (some value) rest else .error .usage
      | .ok (.option spec none) =>
        if spec.takesValue then
          match rest with
          | [] => .error .usage
          | value :: rest =>
            if Word.isValue specs value then ofTextsFrom (some value) rest else .error .usage
        else .error .help
      | .ok .stray => .error .usage

/-- The arguments of a command line. -/
def ofTexts (texts : List String) : Except Refusal RunnerArguments := ofTextsFrom none texts

/-- The paths that the arguments name. -/
def paths (a : RunnerArguments) : List String := a.config?.toList ++ a.task.paths

end RunnerArguments

/-! ## Plans -/

/-- What a command is going to do. -/
inductive Plan where
  /-- To refuse, with lines about what is wrong. -/
  | refuse (lines : List String)
  /-- To write some files, and then to print some lines. -/
  | perform (writes : List (Files.Target × Content)) (lines : List String)

/-- A line of the command. -/
def runnerLine (s : String) : String := "[tdgui-runner] " ++ s ++ "\n"

/-- The lines about what is wrong with something. -/
def issueLines (label : String) (issues : List Validation.Issue) : List String :=
  runnerLine (label ++ " failed validation:")
    :: issues.map (fun i => runnerLine ("  " ++ i.path ++ ": " ++ i.message))

/-- The refusal of a scene file. -/
def refuseScene (path : Files.Target) (issues : List Validation.Issue) : Plan :=
  .refuse (issueLines ("scene " ++ path.shown) issues)

/-- The number of elements in the order of a scene, as a text. -/
def countText (s : Scene) : String := String.ofList (decimalDigits s.order.length)

/-- A number that cannot be had, as a failure of the command. -/
def computed {α : Type} (r : Except NumberError α) : Except Failure α := r.mapError Failure.number

/-- To write the whole script of a scene. -/
def planGenerate (t : Files.Tree) (scene out : Files.Target) : Except Failure Plan := do
  match ← loadScene t scene with
  | .inl issues => return refuseScene scene issues
  | .inr s =>
    let out ← (Files.Tree.usable out).mapError Failure.file
    let script ← computed s.script
    return .perform [(out, .ofText script)]
      [runnerLine ("generated " ++ countText s ++ " element block(s): " ++ out.shown)]

/-- To patch a script for a scene. -/
def planRegenerate (t : Files.Tree) (scene script out : Files.Target) : Except Failure Plan := do
  match ← loadScene t scene with
  | .inl issues => return refuseScene scene issues
  | .inr s =>
    let previous ← readText t script
    let out ← (Files.Tree.usable out).mapError Failure.file
    let patched ← computed (s.patch previous)
    return .perform [(out, .ofText patched)] [runnerLine ("patched script: " ++ out.shown)]

/-- The record of the decisions about a script, made at a time. -/
def decisionsRecord (script : Files.Target) (time : String) (decisions : List Decision) : Json :=
  .obj [("schema_version", .str Scene.schemaVersion), ("created_at", .str time),
    ("script_path", .str script.shown), ("scene_changed", .bool (!decisions.isEmpty)),
    ("decisions", .arr (decisions.map Decision.toJson))]

/-- The files of an ingestion: the scene, the decisions and the script. -/
structure IngestTargets where
  /-- The script that is read. -/
  script : Files.Target
  /-- The scene that is written. -/
  out : Files.Target
  /-- The record of the decisions that is written. -/
  decisionsOut? : Option Files.Target
  /-- The script that is written. -/
  regenerateOut? : Option Files.Target

/-- To write what a session holds after an ingestion, if its scene is valid. -/
def planSession {σ : Type} (time : String) (targets : IngestTargets) (session : Session σ) :
    Except Failure Plan := do
  let document := session.scene.toDocument
  match ← computed (Validation.issues .memory document) with
  | [] =>
    let decisions := targets.decisionsOut?.map fun path =>
      (path, Content.ofJson (decisionsRecord targets.script time session.decisions))
    let script := targets.regenerateOut?.map fun path => (path, Content.ofText session.code)
    let unchanged :=
      if session.decisions.isEmpty then
        [runnerLine "no recognizable statements; scene left unchanged"]
      else []
    return .perform ((targets.out, .ofJson document) :: decisions.toList ++ script.toList)
      (unchanged ++ [runnerLine ("ingested " ++ countText session.scene ++ " element(s): "
        ++ targets.out.shown)])
  | issues => return .refuse (issueLines "ingested scene" issues)

/-- The scene into which a script is read, or the refusal of its file. -/
def baseScene (t : Files.Tree) (scene? : Option Files.Target) : Except Failure (Plan ⊕ Scene) :=
  match scene? with
  | none => .ok (.inr Scene.empty)
  | some scene => (loadScene t scene).map (fun r => r.map (refuseScene scene) id)

/-- To read a script into a scene. -/
def planIngest (env : Environment) (config : EditorConfig) (t : Files.Tree)
    (scene? : Option Files.Target) (targets : IngestTargets) : Except Failure Plan := do
  match ← baseScene t scene? with
  | .inl refusal => return refusal
  | .inr s =>
    let text ← readText t targets.script
    let session := Session.start config s none (IdSource.allocate config.idLength) env.ids
    match session.ingest text targets.regenerateOut?.isSome with
    | (.error e, _) => .error (.session e)
    | (.ok _, session) => planSession env.time targets session

/-- What a task is going to do. -/
def Task.plan (env : Environment) (config : EditorConfig) (t : Files.Tree) :
    Task → Except Failure Plan
  | .generate scene out =>
    planGenerate t (Files.Target.resolved env.base scene) (Files.Target.resolved env.base out)
  | .regenerate scene script out =>
    planRegenerate t (Files.Target.resolved env.base scene) (Files.Target.resolved env.base script)
      (Files.Target.resolved env.base out)
  | .ingest script out scene? decisionsOut? regenerateOut? =>
    planIngest env config t (scene?.map (Files.Target.resolved env.base))
      ⟨Files.Target.resolved env.base script, Files.Target.resolved env.base out,
        decisionsOut?.map (Files.Target.resolved env.base),
        regenerateOut?.map (Files.Target.resolved env.base)⟩

/-! ## Commands -/

namespace RunnerArguments

/-- The configuration that the arguments name. -/
def config (a : RunnerArguments) (env : Environment) (t : Files.Tree) :
    Except Failure EditorConfig :=
  match a.config? with
  | none => .ok EditorConfig.shipped
  | some path => readConfig env t (Files.Target.given env.base path)

/-- What the command is going to do. -/
def plan (a : RunnerArguments) (env : Environment) (t : Files.Tree) : Except Failure Plan := do
  let config ← a.config env t
  a.task.plan env config t

/-- The words for a failure of a command. -/
def failureLine (f : Failure) : String :=
  if f.isDocument then runnerLine ("config/document error: " ++ f.message)
  else if f.isMissingFile then runnerLine ("file error: " ++ f.message)
  else runnerLine ("unexpected error: " ++ f.message)

/-- What a command that fails leaves behind. -/
def failed (f : Failure) (t : Files.Tree) : Report := ⟨2, "", failureLine f, t⟩

/-- What a command leaves behind that is going to do something, or fails. -/
def carryOut (plan : Except Failure Plan) (t : Files.Tree) : Report :=
  match plan with
  | .error f => failed f t
  | .ok (.refuse lines) => ⟨1, "", String.join lines, t⟩
  | .ok (.perform writes lines) =>
    match putAll t writes with
    | (.ok (), t) => ⟨0, String.join lines, "", t⟩
    | (.error f, t) => failed f t

/-- The command. -/
def run (a : RunnerArguments) (env : Environment) (t : Files.Tree) : Report :=
  carryOut (a.plan env t) t

end RunnerArguments

/-- What a command line leaves behind. -/
def runTexts (texts : List String) (env : Environment) (t : Files.Tree) : Report :=
  match RunnerArguments.ofTexts texts with
  | .ok a => a.run env t
  | .error r => r.report t

end SceneScript.Command
