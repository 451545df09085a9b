import SceneScript.Command.Environment
import SceneScript.Config.Basic
import SceneScript.Json.Reader
import SceneScript.Json.Writer
import SceneScript.Scene.Document
import SceneScript.Session.Basic
import SceneScript.Text.Utf8

/-!
# What makes a command fail

Everything that can keep a command from its result, with the words for it. The commands put it
under a heading of its group: a configuration or a document that is wrong, a file that is missing,
or anything else.

The text of a file may turn out to be none only on the way to it. What is to be written is therefore
a `Content`, and `put` says how far writing it comes.
-/

namespace SceneScript.Command

/-- Why a command fails. -/
inductive Failure where
  /-- A file cannot be read or written. -/
  | file (cause : Files.FileError)
  /-- The bytes of a file are no text. -/
  | encoding (cause : Text.Utf8.Malformed)
  /-- A text is no JSON. -/
  | json (cause : Json.ParseError)
  /-- A file is no YAML. -/
  | yaml (words : String)
  /-- A value is no configuration. -/
  | config (cause : ConfigError)
  /-- A value is no scene. -/
  | scene (cause : SceneError)
  /-- A step of a session fails. -/
  | session (cause : SessionError)
  /-- A text has no encoding. -/
  | unencodable (words : String)
  deriving DecidableEq, Repr

namespace Failure

/-- The words for a failure. -/
def message : Failure → String
  | .file cause => cause.message
  | .encoding cause => cause.message
  | .json cause => cause.message
  | .yaml words => words
  | .config cause => cause.message
  | .scene cause => cause.message
  | .session cause => cause.message
  | .unencodable words => words

/-- A number that cannot be had. -/
def number (cause : NumberError) : Failure := .session (.number cause)

/-- Whether a failure is that a configuration or a document is wrong. -/
def isDocument : Failure → Bool
  | .config (.overflow _) => false
  | .config _ => true
  | .scene (.pairLength _ _) | .scene (.notIterable _) | .scene (.notKey _)
  | .scene (.number _) => false
  | .scene _ => true
  | _ => false

/-- Whether a failure is that a file is missing. -/
def isMissingFile : Failure → Bool
  | .file e => e.fault = .notFound
  | _ => false

end Failure

/-! ## Reading files -/

/-- The text of a file, as it is. -/
def readText (t : Files.Tree) (path : Files.Target) : Except Failure (List Char) := do
  let bytes ← (t.read path).mapError Failure.file
  (Text.Utf8.decode bytes).mapError Failure.encoding

/-- The text of a file, with a line feed for every line break. -/
def readLines (t : Files.Tree) (path : Files.Target) : Except Failure (List Char) :=
  (readText t path).map Text.unifyBreaks

/-- The value that a file of JSON writes. -/
def readJson (t : Files.Tree) (path : Files.Target) : Except Failure Json := do
  (Json.parse (← readLines t path)).mapError Failure.json

/-- The configuration that a file of YAML writes. -/
def readConfig (env : Environment) (t : Files.Tree) (path : Files.Target) :
    Except Failure EditorConfig := do
  let bytes ← (t.read path).mapError Failure.file
  let v ← (env.readYaml path.shown bytes).mapError Failure.yaml
  (EditorConfig.ofValue v).mapError Failure.config

/-! ## Writing files -/

/-- A text as the bytes of a file. -/
def bytesOf (s : List Char) : List UInt8 := Text.Utf8.encode s

/-- A value as the bytes of a file of JSON, if its numbers can be written. -/
def jsonBytes (v : Json) : Except NumberError (List UInt8) :=
  (Json.render .indented v).map (fun s => bytesOf (s.toList ++ ['\n']))

/-- What is to be written to a file. -/
inductive Content where
  /-- These bytes. -/
  | bytes (bytes : List UInt8)
  /-- A text that cannot be made, which shows before the file is opened. -/
  | missing (cause : NumberError)
  /-- A text that cannot be encoded, which shows when the file is open and emptied. -/
  | broken (words : String)

/-- A text as what is written to a file. -/
def Content.ofText (s : List Char) : Content := .bytes (bytesOf s)

/-- A value as what is written to a file of JSON. -/
def Content.ofJson (v : Json) : Content :=
  match jsonBytes v with
  | .ok written => .bytes written
  | .error cause => .missing cause

/-- Writing to a file, with the directories above it, and the tree that this leaves. -/
def put (t : Files.Tree) (path : Files.Target) : Content → Except Failure Unit × Files.Tree
  | .bytes bytes =>
    match t.write path bytes with
    | (r, t) => (r.mapError Failure.file, t)
  | .missing cause =>
    match t.makeDirectory path.parent with
    | (.ok (), t) => (.error (.number cause), t)
    | (.error e, t) => (.error (.file e), t)
  | .broken words =>
    match t.write path [] with
    | (.ok (), t) => (.error (.unencodable words), t)
    | (.error e, t) => (.error (.file e), t)

/-- Writing to some files one after the other, up to the first that fails, and the tree that this
leaves. -/
def putAll (t : Files.Tree) :
    List (Files.Target × Content) → Except Failure Unit × Files.Tree
  | [] => (.ok (), t)
  | (path, content) :: rest =>
    match put t path content with
    | (.ok (), t) => putAll t rest
    | (.error f, t) => (.error f, t)

end SceneScript.Command
