import SceneScript.Lua.Numeric
import SceneScript.Script.Shape

/-!
# Recognising statements

A statement is recognised by the function it calls and the form around the call, and read back
into the fields of an element. An argument that is missing or cannot be read gives the default of
its prop.
-/

namespace SceneScript

/-- A recognised statement: the arguments of its call, the handler it calls, and the names that it
assigns. -/
structure Call where
  /-- The arguments, as written. -/
  arguments : List (List Char)
  /-- The handler of a condition. -/
  handler? : Option (List Char)
  /-- The names on the left of an assignment. -/
  targets : List (List Char)
  deriving DecidableEq, Repr

/-- What a statement says about an element. -/
structure Fields where
  /-- The props. -/
  props : Table Json
  /-- The width. -/
  w? : Option Num
  /-- The height. -/
  h? : Option Num
  /-- The handler. -/
  handler? : Option (List Char)

/-! ## Blocks and moves -/

/-- Whether a statement is a call without arguments of a function. -/
def isEmptyCall (function : List Char) (statement : List Char) : Bool :=
  match Text.afterWord? function statement with
  | none => false
  | some rest =>
    match Text.afterChar? '(' (Text.trimLeft rest) with
    | none => false
    | some rest =>
      match Text.afterChar? ')' (Text.trimLeft rest) with
      | none => false
      | some rest => Text.atEnd rest

/-- Whether a statement opens a block. -/
def opensBlock (statement : List Char) : Bool := isEmptyCall "UiPush".toList statement

/-- Whether a statement closes a block. -/
def closesBlock (statement : List Char) : Bool := isEmptyCall "UiPop".toList statement

/-- A call of a function from its opening parenthesis on, if the statement starts with one. -/
def callOf? (function : String) (statement : List Char) : Option (List Char) :=
  (Text.afterWord? function.toList statement).bind Lua.atParenthesis?

/-- The arguments of a move, if the statement is one; a move that cannot be read has none. -/
def moveArguments? (statement : List Char) : Option (List (List Char)) :=
  (callOf? "UiTranslate" statement).map fun call =>
    match Lua.callArguments? call with
    | some (arguments, _) => arguments
    | none => []

/-! ## Openings -/

namespace Shape

/-- The two names and the call of an assignment, given what follows the word that may stand before
it. -/
def sliderOpening? (function : String) (s : List Char) :
    Option (List (List Char) × List Char) := do
  let (value, rest) ← Lua.takeIdentifier? s
  let rest ← Text.afterChar? ',' (Text.trimLeft rest)
  let (done, rest) ← Lua.takeIdentifier? (Text.trimLeft rest)
  let rest ← Text.afterChar? '=' (Text.trimLeft rest)
  let call ← callOf? function (Text.trimLeft rest)
  return ([value, done], call)

/-- The names that a statement assigns and its call from the opening parenthesis on, if it starts
the way of the shape. -/
def opening? (s : Shape) (statement : List Char) : Option (List (List Char) × List Char) :=
  match s.form with
  | .call => (callOf? s.function statement).map ([], ·)
  | .conditional => do
    let rest ← Text.afterWord? "if".toList statement
    let rest ← Text.afterBlanks? rest
    let call ← callOf? s.function rest
    return ([], call)
  | .slider => Lua.optionalLocal (sliderOpening? s.function) statement
  | .comment => none

/-- The handler that is called after a condition. -/
def thenHandler? (rest : List Char) : Option (List Char) := do
  let rest ← Text.afterWord? "then".toList (Text.trimLeft rest)
  let rest ← Text.afterBlanks? rest
  Lua.calledName? rest

/-- Whether a statement is the comment of a delayed drawing. -/
def isDrawLater (statement : List Char) : Bool :=
  match Text.afterWord? "--".toList statement with
  | none => false
  | some rest =>
    match Text.afterWord? "UiDrawLater".toList (Text.trimLeft rest) with
    | none => false
    | some rest => Text.atWordEnd rest

/-- The statement as one of this shape, if it is one. -/
def recognize? (s : Shape) (statement : List Char) : Option Call :=
  let statement := Text.trim statement
  if s.form = .comment then
    if isDrawLater statement then some ⟨[], none, []⟩ else none
  else do
    let (targets, call) ← s.opening? statement
    let (arguments, rest) ← Lua.callArguments? call
    let handler? := if s.form = .conditional then thenHandler? rest else none
    return ⟨arguments, handler?, targets⟩

/-! ## Fields -/

/-- The value of an argument, if it can be read. -/
def argumentValue? (format : Format) (bindings : Lua.Bindings) (token : List Char) : Option Json :=
  match format with
  | .quoted => (Lua.unquote? token).map (fun s => .str (String.ofList s))
  | _ => (Lua.resolveNumber bindings token).map .num

/-- A value as a number, if it is one. -/
def number? : Json → Option Num
  | .num v => some v
  | _ => none

/-- The fields with an argument added: a size only when it can be read, a prop with its default
otherwise. -/
def addArgument (type : String) (fields : Fields) (a : Argument) (value? : Option Json) : Fields :=
  match a.source with
  | .width =>
    match value?.bind number? with
    | some v => { fields with w? := some v }
    | none => fields
  | .height =>
    match value?.bind number? with
    | some v => { fields with h? := some v }
    | none => fields
  | .prop key =>
    match value?.or ((propSpec? type key).bind PropSpec.default?) with
    | some v => { fields with props := fields.props.insert key v }
    | none => fields

/-- The fields with the arguments of a call added, one token each as far as they go. -/
def addArguments (type : String) (bindings : Lua.Bindings) :
    Fields → List Argument → List (List Char) → Fields
  | fields, [], _ => fields
  | fields, a :: as, [] => addArguments type bindings (addArgument type fields a none) as []
  | fields, a :: as, token :: tokens =>
    addArguments type bindings
      (addArgument type fields a (argumentValue? a.format bindings token)) as tokens

/-- The fields with the size that follows from a radius. -/
def addDiameter (s : Shape) (fields : Fields) : Fields :=
  match (s.radius?.bind fields.props.get?).bind number? with
  | some r => { fields with w? := some r.twice, h? := some r.twice }
  | none => fields

/-- A bound of a slider: the argument at a position, else the default. -/
def sliderBound (s : Shape) (bindings : Lua.Bindings) (call : Call) (key : String)
    (position : Nat) : Option Json :=
  ((call.arguments[position]?.bind (Lua.resolveNumber bindings)).map Json.num).or
    ((propSpec? s.type.name key).bind PropSpec.default?)

/-- The fields of a slider: its variable and its bounds. -/
def extractSlider (s : Shape) (bindings : Lua.Bindings) (call : Call) : Fields :=
  let var := (call.targets.head?.map (fun t => ("var", Json.str (String.ofList t)))).toList
  let low := ((sliderBound s bindings call "min" 3).map ("min", ·)).toList
  let high := ((sliderBound s bindings call "max" 4).map ("max", ·)).toList
  ⟨Table.ofList (var ++ low ++ high), none, none, none⟩

/-- What a recognised statement says about its element. -/
def extract (s : Shape) (bindings : Lua.Bindings) (call : Call) : Fields :=
  if s.form = .slider then s.extractSlider bindings call
  else
    s.addDiameter (addArguments s.type.name bindings ⟨Table.empty, none, none, call.handler?⟩
      s.arguments (call.arguments.drop s.literals.length))

/-- The handler that a statement calls once the slider of a call is done, if it does. -/
def followUpHandler? (s : Shape) (call : Call) (statement : List Char) : Option (List Char) :=
  match s.form, call.targets with
  | .slider, _ :: done :: _ => do
    let rest ← Text.afterWord? "if".toList (Text.trim statement)
    let rest ← Text.afterBlanks? rest
    let rest ← Text.afterWord? done rest
    let rest ← Text.afterBlanks? rest
    let rest ← Text.afterWord? "then".toList rest
    let rest ← Text.afterBlanks? rest
    Lua.calledName? rest
  | _, _ => none

end Shape

/-- The shape that a statement has, and the statement as one of that shape. -/
def matchStatement? (statement : List Char) : Option (Shape × Call) :=
  shapes.findSome? (fun s => (s.recognize? statement).map (s, ·))

end SceneScript
