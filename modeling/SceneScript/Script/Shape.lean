import SceneScript.Element.Basic
import SceneScript.Json.Value
import SceneScript.Lua.StringLiteral

/-!
# Statement shapes

Each creatable type has one shape: the function it calls, the form of the statement around the
call, and the arguments, each taken from the size or from a prop of the element. The table
`shapes` serves both directions; here it builds statements, `Script.Statement` recognises them.
-/

namespace SceneScript

/-! ## Arguments -/

/-- Where the value of an argument is kept. -/
inductive Source where
  /-- The width of the element. -/
  | width
  /-- The height of the element. -/
  | height
  /-- A prop of the element. -/
  | prop (key : String)
  deriving DecidableEq, Repr

/-- How the value of an argument is written. -/
inductive Format where
  /-- Rounded to a whole number. -/
  | rounded
  /-- As a number. -/
  | number
  /-- As a string literal. -/
  | quoted
  deriving DecidableEq, Repr

/-- An argument of a statement. -/
structure Argument where
  /-- Where its value is kept. -/
  source : Source
  /-- How it is written. -/
  format : Format
  deriving DecidableEq, Repr

namespace Argument

/-- The value of an argument, if the element has one. -/
def value (a : Argument) (e : Element) : Except NumberError (Option Json) :=
  match a.source with
  | .width => .ok (some (.num e.w))
  | .height => .ok (some (.num e.h))
  | .prop key => e.resolveProp key

/-- A value in a format; nothing is an empty text or nil. -/
def write : Format → Option Json → Except NumberError (List Char)
  | .quoted, none => .ok (Lua.quote [])
  | .quoted, some v => v.text.map (fun s => Lua.quote s.toList)
  | _, none => .ok "nil".toList
  | .rounded, some v => do
    let n ← (← v.asNumber).roundHalfUp
    return intDigits n
  | .number, some v => do (← v.asNumber).plain

/-- An argument as the statement of an element has it. -/
def render (a : Argument) (e : Element) : Except NumberError (List Char) := do
  write a.format (← a.value e)

end Argument

/-! ## Handlers -/

/-- The prop that names the handler of an interactive type. -/
inductive HandlerKey where
  | onPress
  | onChange
  deriving DecidableEq, Repr

namespace HandlerKey

/-- The key of the prop. -/
def key : HandlerKey → String
  | .onPress => "onPress"
  | .onChange => "onChange"

/-- The end of a handler name made from the name of an element. -/
def suffix : HandlerKey → String
  | .onPress => "Press"
  | .onChange => "Change"

/-- The handler key of a prop. -/
def ofKey? (key : String) : Option HandlerKey := [onPress, onChange].find? (fun k => k.key = key)

/-- The handler name made from the name of an element. -/
def derivedName (k : HandlerKey) (name : List Char) : List Char :=
  "on".toList ++ Element.alphanumerics name ++ k.suffix.toList

end HandlerKey

/-! ## Shapes -/

/-- The form of the statement around the call. -/
inductive Form where
  /-- The call alone. -/
  | call
  /-- A condition on the call, with a handler. -/
  | conditional
  /-- An assignment of two results, with a condition on the second in a statement of its own. -/
  | slider
  /-- A comment. -/
  | comment
  deriving DecidableEq, Repr

/-- The statements of a type of elements. -/
structure Shape where
  /-- The type. -/
  type : ElementType
  /-- The function that is called. -/
  function : String
  /-- The form of the statement. -/
  form : Form
  /-- Arguments that are the same for all elements, before the others. -/
  literals : List String
  /-- The arguments taken from the element. -/
  arguments : List Argument
  /-- The prop that names the handler. -/
  handler? : Option HandlerKey
  /-- The prop that is half the width and half the height. -/
  radius? : Option String
  deriving DecidableEq, Repr

namespace Shape

/-- Rounded arguments from the width, the height, or props. -/
def rounded (keys : List String) : List Argument :=
  keys.map fun key =>
    ⟨if key = "w" then .width else if key = "h" then .height else .prop key, .rounded⟩

/-- Number arguments from props. -/
def numbers (keys : List String) : List Argument := keys.map fun key => ⟨.prop key, .number⟩

/-- A string argument from a prop. -/
def string (key : String) : Argument := ⟨.prop key, .quoted⟩

/-- A shape that is a call alone. -/
def plain (type : ElementType) (function : String) (arguments : List Argument) : Shape :=
  ⟨type, function, .call, [], arguments, none, none⟩

/-- A shape that is a call alone, and whose size follows a radius. -/
def round (type : ElementType) (function : String) (arguments : List Argument) : Shape :=
  ⟨type, function, .call, [], arguments, none, some "radius"⟩

/-- A shape that is a condition with a handler. -/
def pressed (type : ElementType) (function : String) (arguments : List Argument) : Shape :=
  ⟨type, function, .conditional, [], arguments, some .onPress, none⟩

end Shape

open Shape in
/-- The shapes of all creatable types. -/
def shapes : List Shape :=
  [plain .text "UiText" [string "text"],
    plain .rect "UiRect" (rounded ["w", "h"]),
    plain .rectOutline "UiRectOutline" (rounded ["w", "h", "thickness"]),
    plain .roundRect "UiRoundedRect" (rounded ["w", "h", "radius"]),
    plain .roundedRectOutline "UiRoundedRectOutline" (rounded ["w", "h", "radius", "thickness"]),
    Shape.round .circle "UiCircle" (rounded ["radius"]),
    Shape.round .circleOutline "UiCircleOutline" (rounded ["radius", "thickness"]),
    plain .image "UiImage" [string "path"],
    plain .imageBox "UiImageBox" (string "path" :: rounded ["w", "h", "borderW", "borderH"]),
    pressed .button "UiTextButton" (string "text" :: rounded ["w", "h"]),
    pressed .imageButton "UiImageButton" [string "path"],
    pressed .blankButton "UiBlankButton" (rounded ["w", "h"]),
    ⟨.slider, "UiSlider", .slider, [], [], some .onChange, none⟩,
    ⟨.mute, "UiMute", .call, ["1"], [], none, none⟩,
    plain .colorFilter "UiColorFilter" (numbers ["r", "g", "b", "a"]),
    plain .color "UiColor" (numbers ["r", "g", "b", "a"]),
    plain .disableInput "UiDisableInput" [],
    plain .buttonHoverColor "UiButtonHoverColor" (numbers ["r", "g", "b", "a"]),
    plain .setCursorState "UiSetCursorState" (numbers ["state"]),
    plain .ignoreNavigation "UiIgnoreNavigation" [],
    plain .font "UiFont" (string "path" :: numbers ["size"]),
    plain .align "UiAlign" [string "align"],
    plain .textOutline "UiTextOutline" (numbers ["r", "g", "b", "a", "thickness"]),
    plain .wordWrap "UiWordWrap" (numbers ["width"]),
    plain .textAlignment "UiTextAlignment" [string "mode"],
    ⟨.drawLater, "UiDrawLater", .comment, [], [], none, none⟩]

/-- The shape for the name of a type. -/
def shapeOf? (type : String) : Option Shape := shapes.find? (fun s => s.type.name = type)

/-- The handler that the statements of an element call: the one it names, else one made from its
name; none for a type without handlers. -/
def Element.handlerName? (e : Element) : Option (List Char) := do
  let shape ← shapeOf? e.type
  let key ← shape.handler?
  match e.props.get? key.key with
  | some (.str s) =>
    let name := Text.trim s.toList
    return if name.isEmpty then key.derivedName e.name.toList else name
  | _ => return key.derivedName e.name.toList

/-! ## Building -/

namespace Shape

/-- The comment that stands for a delayed drawing. -/
def drawLaterComment : List Char := "-- UiDrawLater not supported in static export".toList

/-- The call of a shape with given arguments. -/
def call (s : Shape) (arguments : List (List Char)) : List Char :=
  s.function.toList ++ '(' :: Text.join ", ".toList arguments ++ [')']

/-- The name of the handler of an element, as the statements of an interactive type have it. -/
def handlerText (e : Element) : List Char := e.handlerName?.getD "None".toList

/-- A prop as a number argument. -/
def numberProp (e : Element) (key : String) : Except NumberError (List Char) :=
  (Argument.mk (.prop key) .number).render e

/-- The two statements of a slider. -/
def buildSlider (s : Shape) (e : Element) : Except NumberError (List (List Char)) := do
  let stored ← e.resolveProp "var"
  let low ← numberProp e "min"
  let high ← numberProp e "max"
  let var := (← (stored.getD .null).text).toList
  return [
    var ++ ", __done = ".toList ++ s.function.toList ++ "(\"dot.png\", \"x\", ".toList ++ var
      ++ " or ".toList ++ low ++ ", ".toList ++ low ++ ", ".toList ++ high ++ ")".toList,
    "if __done then ".toList ++ handlerText e ++ "(".toList ++ var ++ ") end".toList]

/-- The statements of an element. -/
def build (s : Shape) (e : Element) : Except NumberError (List (List Char)) :=
  match s.form with
  | .comment => .ok [drawLaterComment]
  | .slider => s.buildSlider e
  | .call => do
    let arguments ← s.arguments.mapM (fun a => a.render e)
    return [s.call (s.literals.map String.toList ++ arguments)]
  | .conditional => do
    let arguments ← s.arguments.mapM (fun a => a.render e)
    return ["if ".toList ++ s.call (s.literals.map String.toList ++ arguments)
      ++ " then ".toList ++ handlerText e ++ "() end".toList]

end Shape

end SceneScript
