import SceneScript.Command.Runner
import SceneScript.Command.Time
import SceneScript.Command.Validator
import SceneScript.Yaml.Reader
import Std.Time.DateTime.Timestamp

/-!
# The program

The outer layer: it takes the files that a command names into a tree, runs the command, writes the
files that have changed, and prints.
-/

namespace SceneScript

open Command

/-- The directory in which the program runs, as a location. -/
def currentLocation : IO Files.Location := do
  return Files.resolve [""] (← IO.currentDir).toString

/-- The locations that matter for some paths: those on their ways, and everything above. -/
def placesOf (base : Files.Location) (paths : List String) : List Files.Location :=
  (paths.flatMap fun path =>
    let places := (Files.Target.given base path).places ++ (Files.Target.resolved base path).places
    places ++ places.flatMap Files.above).eraseDups

/-- The tree of what there is at some locations. -/
def readTree (places : List Files.Location) : IO Files.Tree := do
  let top ← IO.currentDir
  let mut directories : List Files.Location := [[""]]
  let mut files : List (Files.Location × List UInt8) := []
  for place in places do
    let path := top / Files.locationText place
    if ← path.isDir then
      directories := place :: directories
    else if ← path.pathExists then
      files := (place, (← IO.FS.readBinFile path).toList) :: files
  return Files.Tree.ofFiles directories files

/-- The files of a tree that differ from those of another are written. -/
def writeTree (before after : Files.Tree) : IO Unit := do
  for directory in after.directories do
    unless before.directories.contains directory do
      IO.FS.createDirAll directory
  for (name, bytes) in after.files.entries do
    unless before.files.get? name = some bytes do
      IO.FS.writeBinFile name (ByteArray.mk bytes.toArray)

/-- Random bytes in hexadecimal. -/
def randomText : IO String := do
  let bytes ← IO.getRandomBytes 16
  return String.ofList (bytes.toList.flatMap (fun b => Text.hexPad 2 b.toNat))

/-- Where a command runs: here and now. -/
def environment : IO Environment := do
  let now ← Std.Time.Timestamp.now
  let given ← (List.range 1024).mapM (fun _ => randomText)
  return {
    base := ← currentLocation
    schemaPath := "schemas/scene.schema.json"
    time := timeText now.toSecondsSinceUnixEpoch.val.toNat
    ids := IdSource.ofGiven given
    readYaml := Yaml.read }

/-- A command is run on the files that some paths name. -/
def runOn (paths : List String) (command : Environment → Files.Tree → Except Failure Report) :
    IO UInt32 := do
  let env ← environment
  let before ← readTree (placesOf env.base paths)
  match command env before with
  | .ok report =>
    writeTree before report.files
    IO.print report.out
    IO.eprint report.err
    return UInt32.ofNat report.exit
  | .error e =>
    IO.eprintln e.message
    return 1

end SceneScript

open SceneScript Command in
/-- The program. -/
def main (arguments : List String) : IO UInt32 :=
  match arguments with
  | "validate" :: rest =>
    match ValidatorArguments.ofTexts rest with
    | .ok a => runOn a.paths a.run
    | .error r => runOn [] (fun _ t => .ok (r.report t))
  | texts =>
    let paths := ((RunnerArguments.ofTexts texts).toOption.map RunnerArguments.paths).getD []
    runOn paths (fun env t => .ok (runTexts texts env t))
