import SceneScript.Script.Marker
import SceneScript.Script.Shape
import SceneScript.Scene.Basic

/-!
# Blocks and whole scripts

The block of an element is its marker, then a region that moves to the place of the element and
makes its statements. A whole script is a frame around the blocks of a scene, followed by stubs for
the handlers that the blocks call.
-/

namespace SceneScript

/-- A line of a script. -/
abbrev Line := List Char

/-- The step by which a nested line is indented. -/
def indentStep : List Char := "    ".toList

namespace Element

/-- The move to the place of an element. -/
def moveLine (e : Element) : Except NumberError Line := do
  let x ← e.x.roundHalfUp
  let y ← e.y.roundHalfUp
  return "UiTranslate(".toList ++ intDigits x ++ ", ".toList ++ intDigits y ++ ")".toList

/-- The statements of an element; a type without a shape has none. -/
def statements (e : Element) : Except NumberError (List Line) :=
  match shapeOf? e.type with
  | some shape => shape.build e
  | none => .ok []

/-- The block of an element, at an indent. -/
def block (e : Element) (indent : List Char) : Except NumberError (List Line) := do
  let marker ← Marker.line e
  let move ← e.moveLine
  let statements ← e.statements
  let inner := indent ++ indentStep
  return (indent ++ marker) :: (indent ++ "UiPush()".toList) :: (inner ++ move)
    :: statements.map (inner ++ ·) ++ [indent ++ "UiPop()".toList]

end Element

/-- The blocks of some elements, one after the other, at an indent. -/
def blocksOf (indent : List Char) (elements : List Element) : Except NumberError (List Line) := do
  let blocks ← elements.mapM (fun e => e.block indent)
  return blocks.flatten

/-! ## Handlers -/

/-- The handlers of some elements, each once, in the order of first use. -/
def handlersOf (elements : List Element) : List (List Char) :=
  elements.foldl (fun names e =>
    match ElementType.ofName? e.type, e.handlerName? with
    | some t, some name =>
      if t.isInteractive && !name.isEmpty && !names.contains name then names ++ [name] else names
    | _, _ => names) []

/-- The handlers that the blocks of a scene call. -/
def Scene.handlers (s : Scene) : List (List Char) := handlersOf s.orderedElements

/-- The stub of a handler. -/
def handlerStub (name : List Char) : Line := "function ".toList ++ name ++ "() end".toList

/-! ## Whole scripts -/

/-- The lines before the blocks of a scene. -/
def headerLines : List Line :=
  ["-- Auto-generated Teardown UI code",
    "state = state or \x7b\x7d",
    "",
    "function draw()",
    "    UiPush()",
    "        local x0,y0,x1,y1 = UiSafeMargins(); UiTranslate(x0,y0); UiWindow(x1-x0, y1-y0)"].map
    String.toList

/-- The lines between the blocks of a scene and its stubs. -/
def footerLines : List Line :=
  ["    UiPop()",
    "end",
    "",
    "-- Event handler stubs (implement)"].map String.toList

/-- The lines of the whole script of a scene. -/
def Scene.scriptLines (s : Scene) : Except NumberError (List Line) := do
  let blocks ← blocksOf (indentStep ++ indentStep) s.orderedElements
  return headerLines ++ blocks ++ footerLines ++ s.handlers.map handlerStub

/-- The whole script of a scene. -/
def Scene.script (s : Scene) : Except NumberError (List Char) := do
  let lines ← s.scriptLines
  return Text.join ['\n'] lines ++ ['\n']

end SceneScript
