import SceneScript.Command.Failure
import SceneScript.Validation.Scene

/-!
# Scene files

Checking a scene file and loading the scene that it holds. A file that is missing, or that is no
JSON, is an issue like the broken rules of a document; any other trouble with it is a failure.
-/

namespace SceneScript.Command

/-! ## Checking -/

/-- The issue that there is no scene file. -/
def notFoundIssue (path : String) : Validation.Issue :=
  ⟨"$", "scene file not found: " ++ path, "file_exists"⟩

/-- The issue that a scene file is no JSON. -/
def jsonIssue (e : Json.ParseError) : Validation.Issue :=
  ⟨"$", "invalid JSON scene: " ++ e.message, "json_parse"⟩

/-- The issues of a scene file; nothing else is looked at when it is missing or no JSON. Before a
document is checked, something else may have to succeed. -/
def fileIssues (t : Files.Tree) (path : Files.Target) (beforeCheck : Except Failure Unit) :
    Except Failure (List Validation.Issue) := do
  if ← (t.hasAny path).mapError Failure.file then
    match readJson t path with
    | .error (.json (.at fault offset line column)) =>
      return [jsonIssue (.at fault offset line column)]
    | .error e => .error e
    | .ok document => do
      beforeCheck
      (Validation.issues .text document).mapError Failure.number
  else return [notFoundIssue path.shown]

/-! ## Loading -/

/-- The scene that a file holds, or the issues of the file. -/
def loadScene (t : Files.Tree) (path : Files.Target) :
    Except Failure (List Validation.Issue ⊕ Scene) := do
  match ← fileIssues t path (.ok ()) with
  | [] =>
    let document ← readJson t path
    let s ← (Scene.ofDocument document).mapError Failure.scene
    return .inr s
  | issues => return .inl issues

end SceneScript.Command
