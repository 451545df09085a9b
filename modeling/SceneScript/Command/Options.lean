import SceneScript.Text.Character
import SceneScript.Text.Match

/-!
# Options on a command line

A command line gives options by their names, or by beginnings that only one name has, and values in
the same word after an equals sign or in the next one. A word that starts with a dash is a value
only when it is a dash alone, a negative number, or holds a blank and names no option. A later
option of a name overrides an earlier one.
-/

namespace SceneScript.Command

/-- Why a command line is not carried out. -/
inductive Refusal where
  /-- It asks for help. -/
  | help
  /-- It is wrong. -/
  | usage
  deriving DecidableEq, Repr

/-- An option of a command. -/
structure OptionSpec where
  /-- Its name, with the dashes. -/
  name : String
  /-- Whether it takes a value. -/
  takesValue : Bool
  deriving DecidableEq, Repr

namespace OptionSpec

/-- An option with a value. -/
def valued (name : String) : OptionSpec := ⟨name, true⟩

/-- An option without a value. -/
def flag (name : String) : OptionSpec := ⟨name, false⟩

/-- The option that every command has. -/
def help : OptionSpec := flag "--help"

end OptionSpec

/-! ## Words -/

/-- A word of a command line. -/
inductive Word where
  /-- A value. -/
  | value (s : String)
  /-- An option, perhaps with its value. -/
  | option (spec : OptionSpec) (explicit? : Option String)
  /-- A word that the command does not know. -/
  | stray
  deriving DecidableEq, Repr

namespace Word

/-- A text cut at its first equals sign. -/
def splitEquals (s : List Char) : List Char × Option (List Char) :=
  match s.dropWhile (· ≠ '=') with
  | [] => (s, none)
  | _ :: after => (s.takeWhile (· ≠ '='), some after)

/-- Whether a text is a negative number without exponent. -/
def isNegativeNumber (s : List Char) : Bool :=
  match s with
  | '-' :: t =>
    let whole := t.takeWhile Text.isDigit
    let rest := t.dropWhile Text.isDigit
    match rest with
    | '.' :: fraction =>
      !(fraction.takeWhile Text.isDigit).isEmpty && Text.atEnd (fraction.dropWhile Text.isDigit)
    | rest => !whole.isEmpty && Text.atEnd rest
  | _ => false

/-- The options whose names start with a word of two dashes. -/
def candidates (specs : List OptionSpec) (word : List Char) : List OptionSpec :=
  if "--".toList.isPrefixOf word then
    specs.filter (fun spec => word.isPrefixOf spec.name.toList)
  else []

/-- A word that starts with a dash, is not one alone, and is no name of an option. -/
def ofDashed (specs : List OptionSpec) (s : String) : Except Refusal Word :=
  let (name, explicit?) := splitEquals s.toList
  let explicit? := explicit?.map String.ofList
  let named? : Option OptionSpec :=
    if explicit?.isSome then specs.find? (fun spec => spec.name.toList = name) else none
  match named?, candidates specs name with
  | some spec, _ => .ok (.option spec explicit?)
  | none, [spec] => .ok (.option spec explicit?)
  | none, _ :: _ :: _ => .error .usage
  | none, [] =>
    .ok (if isNegativeNumber s.toList || s.toList.contains ' ' then .value s else .stray)

/-- A word of a command line. -/
def ofText (specs : List OptionSpec) (s : String) : Except Refusal Word :=
  if s.toList.head? ≠ some '-' then .ok (.value s)
  else if s = "-h" then .ok (.option .help none)
  else
    match specs.find? (fun spec => spec.name = s) with
    | some spec => .ok (.option spec none)
    | none => if s = "-" then .ok (.value s) else ofDashed specs s

/-- Whether a text is a value. -/
def isValue (specs : List OptionSpec) (s : String) : Bool :=
  match ofText specs s with
  | .ok (.value _) => s ≠ "--"
  | _ => false

/-- The words of a command line; after two dashes alone there are only values. -/
def ofTexts (specs : List OptionSpec) : List String → Except Refusal (List Word)
  | [] => .ok []
  | s :: rest =>
    if s = "--" then .ok (.stray :: rest.map .value)
    else do
      let word ← ofText specs s
      let words ← ofTexts specs rest
      return word :: words

end Word

/-! ## Options with their values -/

/-- What the words of a command line give. -/
structure Given where
  /-- The options with their values, those without one with an empty text. -/
  values : List (String × String)
  /-- Whether there are words that are neither options nor their values. -/
  hasStray : Bool
  deriving DecidableEq, Repr

namespace Given

/-- What is given with a word that is neither option nor value. -/
def withStray (g : Given) : Given := { g with hasStray := true }

/-- What is given with an option in front. -/
def withValue (name value : String) (g : Given) : Given :=
  { g with values := (name, value) :: g.values }

/-- What some words give. -/
def ofWords : List Word → Except Refusal Given
  | [] => .ok ⟨[], false⟩
  | .value _ :: rest => (ofWords rest).map withStray
  | .stray :: rest => (ofWords rest).map withStray
  | .option spec (some value) :: rest =>
    if spec.takesValue then (ofWords rest).map (withValue spec.name value) else .error .usage
  | .option spec none :: rest =>
    if spec.takesValue then
      match rest with
      | .value value :: rest => (ofWords rest).map (withValue spec.name value)
      | _ => .error .usage
    else if spec = .help then .error .help
    else (ofWords rest).map (withValue spec.name "")

/-- What a command line gives that has to consist of options and has to have some of them. -/
def ofTexts (specs : List OptionSpec) (required : List String) (texts : List String) :
    Except Refusal Given := do
  let given ← ofWords (← Word.ofTexts (.help :: specs) texts)
  if given.hasStray || required.any (fun name => !given.values.any (fun v => v.1 = name)) then
    .error .usage
  else .ok given

/-- The value of an option; the last one counts. -/
def value? (g : Given) (name : String) : Option String :=
  (g.values.reverse.find? (fun v => v.1 = name)).map Prod.snd

/-- The value of an option, unless it is empty. -/
def filled? (g : Given) (name : String) : Option String :=
  (g.value? name).filter (fun s => !s.isEmpty)

/-- The value of an option that has to be there. -/
def required (g : Given) (name : String) : String := (g.value? name).getD ""

end Given

end SceneScript.Command
