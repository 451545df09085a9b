import SceneScript.Files.Location
import SceneScript.Table
import SceneScript.Text.Quoted

/-!
# Trees of files

A tree holds files with their bytes, and directories. A path is followed step by step, and every
step has to start from a directory. Reading and writing fail as they do on a disk; writing makes the
directories that are missing, and those that it has made stay when it fails.
-/

namespace SceneScript.Files

/-- A tree of files, keyed by the texts of their locations. -/
structure Tree where
  /-- The bytes of the files. -/
  files : Table (List UInt8)
  /-- The directories. -/
  directories : List String

/-! ## What can go wrong -/

/-- Why a file cannot be read or written. -/
inductive Fault where
  /-- There is nothing at the path. -/
  | notFound
  /-- There is a file where a directory is wanted. -/
  | alreadyExists
  /-- The path goes through a file. -/
  | notDirectory
  /-- There is a directory at the path. -/
  | isDirectory
  /-- The path or a name in it is too long. -/
  | nameTooLong
  /-- There is a null character in the path. -/
  | nullCharacter
  deriving DecidableEq, Repr

/-- The number and the words for a fault. -/
def Fault.words : Fault → String
  | .notFound => "[Errno 2] No such file or directory"
  | .alreadyExists => "[Errno 17] File exists"
  | .notDirectory => "[Errno 20] Not a directory"
  | .isDirectory => "[Errno 21] Is a directory"
  | .nameTooLong => "[Errno 36] File name too long"
  | .nullCharacter => "embedded null byte"

/-- A fault with the path as it is shown. -/
structure FileError where
  /-- What is wrong. -/
  fault : Fault
  /-- The path. -/
  path : String
  deriving DecidableEq, Repr

/-- The words for an error. -/
def FileError.message (e : FileError) : String :=
  match e.fault with
  | .nullCharacter => e.fault.words
  | _ => e.fault.words ++ ": " ++ Text.quotedString e.path

namespace Tree

/-! ## Looking -/

/-- The bytes of the file at a location. -/
def file? (t : Tree) (place : Location) : Option (List UInt8) := t.files.get? (locationText place)

/-- Whether there is a directory at a location. -/
def isDirectory (t : Tree) (place : Location) : Bool :=
  t.directories.contains (locationText place)

/-- Whether there is anything at a location. -/
def isPresent (t : Tree) (place : Location) : Bool := (t.file? place).isSome || t.isDirectory place

/-- How many bytes a name may have. -/
def nameLimit : Nat := 255

/-- How many bytes a path has to stay below. -/
def pathLimit : Nat := 4096

/-- Where some steps lead from a location. Every step starts from a directory; there may be nothing
where the last one leads. -/
def follow (t : Tree) (place : Location) : List String → Except Fault Location
  | [] => .ok place
  | step :: steps =>
    if t.isDirectory place then
      if nameLimit < step.utf8ByteSize then .error .nameTooLong
      else t.follow (Files.follow place step) steps
    else .error (if t.isPresent place then .notDirectory else .notFound)

/-- Where a path leads. -/
def locate (t : Tree) (path : Target) : Except Fault Location :=
  if path.hasNull then .error .nullCharacter
  else if pathLimit ≤ path.shown.utf8ByteSize then .error .nameTooLong
  else t.follow path.start path.steps

/-- A path, unless it is broken. -/
def usable (path : Target) : Except FileError Target :=
  if path.isBroken then .error ⟨.nullCharacter, path.shown⟩ else .ok path

/-- Whether there is anything at a path. A path with a null character leads nowhere, but cannot be
resolved. -/
def hasAny (t : Tree) (path : Target) : Except FileError Bool :=
  match t.locate path with
  | .ok place => .ok (t.isPresent place)
  | .error .nameTooLong => .error ⟨.nameTooLong, path.shown⟩
  | .error .nullCharacter =>
    (usable path).map (fun _ => false)
  | .error _ => .ok false

/-- The bytes of the file at a path. -/
def read (t : Tree) (path : Target) : Except FileError (List UInt8) :=
  match t.locate path with
  | .error fault => .error ⟨fault, path.shown⟩
  | .ok place =>
    match t.file? place with
    | some bytes => .ok bytes
    | none => .error ⟨if t.isDirectory place then .isDirectory else .notFound, path.shown⟩

/-! ## Writing -/

/-- The tree with a directory at a path, if the one above it is there. -/
def makeLast (t : Tree) (path : Target) : Except Fault Tree :=
  match t.locate path with
  | .error fault => .error fault
  | .ok place =>
    if t.isDirectory place then .ok t
    else if (t.file? place).isSome then .error .alreadyExists
    else .ok { t with directories := t.directories ++ [locationText place] }

/-- Making a directory at a path, if the one above it is there, and the tree that this leaves. -/
def makeOne (t : Tree) (path : Target) : Except FileError Unit × Tree :=
  match t.makeLast path with
  | .ok t => (.ok (), t)
  | .error fault => (.error ⟨fault, path.shown⟩, t)

/-- Making a directory at a path of so many steps, and those above it, and the tree that this
leaves. -/
def makeAll (t : Tree) (path : Target) : Nat → Except FileError Unit × Tree
  | 0 => t.makeOne path
  | n + 1 =>
    match t.makeLast path with
    | .ok t => (.ok (), t)
    | .error .notFound =>
      match t.makeAll path.parent n with
      | (.ok (), t) => t.makeOne path
      | (.error e, t) => (.error e, t)
    | .error fault => (.error ⟨fault, path.shown⟩, t)

/-- Making a directory at a path, and those above it, and the tree that this leaves. -/
def makeDirectory (t : Tree) (path : Target) : Except FileError Unit × Tree :=
  t.makeAll path path.steps.length

/-- Writing a file at a path, with the directories above it, and the tree that this leaves. -/
def write (t : Tree) (path : Target) (bytes : List UInt8) : Except FileError Unit × Tree :=
  match t.makeDirectory path.parent with
  | (.error e, t) => (.error e, t)
  | (.ok (), t) =>
    match t.locate path with
    | .error fault => (.error ⟨fault, path.shown⟩, t)
    | .ok place =>
      if t.isDirectory place then (.error ⟨.isDirectory, path.shown⟩, t)
      else (.ok (), { t with files := t.files.insert (locationText place) bytes })

/-! ## Making trees -/

/-- The tree of some files, with the directories above them and some others. -/
def ofFiles (directories : List Location) (files : List (Location × List UInt8)) : Tree :=
  let places := directories ++ directories.flatMap above ++ files.flatMap (fun f => above f.1)
  ⟨Table.ofList (files.map (fun f => (locationText f.1, f.2))), (places.map locationText).eraseDups⟩

end Tree

end SceneScript.Files
