import SceneScript.Command.Options
import SceneScript.Files.Tree
import SceneScript.Identity.Allocator
import SceneScript.Yaml.Value

/-!
# Where commands run

What a command needs to know beside its arguments and the files, and what it leaves behind.
-/

namespace SceneScript.Command

/-- Where a command runs. -/
structure Environment where
  /-- The directory in which it runs. -/
  base : Files.Location
  /-- The path of the shipped schema. -/
  schemaPath : String
  /-- The time at which it runs. -/
  time : String
  /-- Where fresh ids come from. -/
  ids : IdSource
  /-- How a file of YAML is read: its path, as it is shown, and its bytes give a value, or the words
  for what is wrong. Nothing is assumed about it. -/
  readYaml : String → List UInt8 → Except String Yaml.Value

/-- What a command leaves behind: an exit code, what it printed, and the files. -/
structure Report where
  /-- The exit code. -/
  exit : Nat
  /-- What was printed. -/
  out : String
  /-- What was printed about errors. -/
  err : String
  /-- The files. -/
  files : Files.Tree

/-- What is printed for a command line that asks for help, or is wrong. -/
def usageText : String :=
  "usage: [--config FILE] generate --scene FILE --out FILE\n"
    ++ "       [--config FILE] regenerate --scene FILE --script FILE --out FILE\n"
    ++ "       [--config FILE] ingest --script FILE --out FILE [--scene FILE]\n"
    ++ "           [--decisions-out FILE] [--regenerate-out FILE]\n"
    ++ "       validate --scene FILE [--schema FILE] [--report-out FILE] [--pretty]\n"

/-- What a command line leaves behind that is not carried out. -/
def Refusal.report (t : Files.Tree) : Refusal → Report
  | .help => ⟨0, usageText, "", t⟩
  | .usage => ⟨2, "", usageText, t⟩

end SceneScript.Command
