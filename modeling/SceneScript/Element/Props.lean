import SceneScript.Element.Type
import SceneScript.Json.Value

/-!
# Props

Every element type has a list of props that its elements may hold, each of one kind and most with
a default. `coerceProp` decides whether a value may be stored under a prop: texts and numbers as
they are, colour channels clamped to the range from zero to one, and null to clear the prop.
-/

namespace SceneScript

/-- The kind of value that a prop holds. -/
inductive PropKind where
  /-- A text. -/
  | text
  /-- A number. -/
  | number
  /-- A number from zero to one. -/
  | channel
  deriving DecidableEq, Repr

/-- The word for a kind of prop. -/
def PropKind.word : PropKind → String
  | .text => "str"
  | .number => "number"
  | .channel => "channel"

/-- A prop that elements of a type may hold. -/
structure PropSpec where
  /-- The key under which it is stored. -/
  key : String
  /-- The kind of its values. -/
  kind : PropKind
  /-- Its default. Without one it is optional, or computed from the element. -/
  default? : Option Json

/-- The path of the image that stands for one not yet chosen. -/
def placeholderImage : String := "ui/example.png"

/-- The binary64 number nearest to tenths. -/
def tenths (n : Nat) : Num := .double (Binary64.ofDecimal false n (-1))

namespace PropSpec

/-- A text prop with a default. -/
def ofText (key value : String) : PropSpec := ⟨key, .text, some (.str value)⟩

/-- A number prop with a default. -/
def ofNumber (key : String) (value : Num) : PropSpec := ⟨key, .number, some (.num value)⟩

/-- A channel prop with a default. -/
def ofChannel (key : String) (value : Num) : PropSpec := ⟨key, .channel, some (.num value)⟩

/-- A prop without a default. -/
def optional (key : String) (kind : PropKind) : PropSpec := ⟨key, kind, none⟩

/-- The four channels of a colour: opaque, with one default for red, green and blue. -/
def channels (value : Num) : List PropSpec :=
  [ofChannel "r" value, ofChannel "g" value, ofChannel "b" value, ofChannel "a" 1]

end PropSpec

open PropSpec in
/-- The props of a type. -/
def ElementType.props : ElementType → List PropSpec
  | .text => [ofText "text" "Text"]
  | .rectOutline => [ofNumber "thickness" 2]
  | .roundRect => [ofNumber "radius" 8]
  | .roundedRectOutline => [ofNumber "radius" 8, ofNumber "thickness" 2]
  | .circle => [optional "radius" .number]
  | .circleOutline => [optional "radius" .number, ofNumber "thickness" 2]
  | .image => [ofText "path" placeholderImage]
  | .imageBox => [ofText "path" placeholderImage, ofNumber "borderW" 10, ofNumber "borderH" 10]
  | .button => [ofText "text" "Button", optional "onPress" .text]
  | .imageButton => [ofText "path" placeholderImage, optional "onPress" .text]
  | .blankButton => [optional "onPress" .text]
  | .slider =>
    [optional "var" .text, ofNumber "min" 0, ofNumber "max" 100, optional "onChange" .text]
  | .colorFilter => channels 1
  | .color => channels 1
  | .buttonHoverColor => channels (tenths 8)
  | .setCursorState => [ofNumber "state" 0]
  | .font => [ofText "path" "regular.ttf", ofNumber "size" 18]
  | .align => [ofText "align" "left"]
  | .textOutline =>
    [ofChannel "r" 0, ofChannel "g" 0, ofChannel "b" 0, ofChannel "a" 1,
      ofNumber "thickness" (tenths 1)]
  | .wordWrap => [ofNumber "width" 600]
  | .textAlignment => [ofText "mode" "left"]
  | .rect | .mute | .disableInput | .ignoreNavigation | .drawLater | .group => []

/-- The props of the type of a name; an unknown type has none. -/
def propsOf (type : String) : List PropSpec :=
  match ElementType.ofName? type with
  | some t => t.props
  | none => []

/-- The prop of a type under a key. -/
def propSpec? (type key : String) : Option PropSpec := (propsOf type).find? (fun p => p.key = key)

/-- The size of an element of a type that says nothing else. -/
def ElementType.defaultSize (t : ElementType) : Num × Num :=
  match t with
  | .text => (200, 30)
  | .slider => (200, 24)
  | .image | .imageBox => (128, 128)
  | .imageButton => (64, 64)
  | .circle | .circleOutline => (100, 100)
  | t => if t.isDirective then (0, 0) else (200, 50)

/-- The default size for the name of a type, known or not. -/
def defaultSizeOf (type : String) : Num × Num :=
  match ElementType.ofName? type with
  | some t => t.defaultSize
  | none => (200, 50)

/-! ## Storing a value -/

/-- A number held within the range from zero to one. -/
def clampChannel (v : Num) : Except NumberError Num :=
  if (0 : Num).le v && v.le 1 then .ok v
  else do
    let x ← v.toDouble
    let one : Num := .double (Binary64.ofInt 1)
    let zero : Num := .double (.zero false)
    return zero.max (one.min (.double x))

/-- The value to store under a prop of a type: nothing when the prop does not exist or the value
is not of its kind, null to clear it. -/
def coerceProp (type key : String) (value : Json) : Except NumberError (Option Json) :=
  match propSpec? type key with
  | none => .ok none
  | some spec =>
    match value, spec.kind with
    | .null, _ => .ok (some .null)
    | .str s, .text => .ok (some (.str s))
    | .num v, .number => .ok (some (.num v))
    | .num v, .channel => (clampChannel v).map (fun c => some (.num c))
    | _, _ => .ok none

end SceneScript
