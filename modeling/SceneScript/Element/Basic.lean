import SceneScript.Element.Props

/-!
# Elements

An element has an id, the name of its type, a name, a place, a size and props. `resolveProp` is
the value that a prop has in effect: the stored one, else one computed from the element, else the
default of the type.
-/

namespace SceneScript

/-- An element of a scene. -/
structure Element where
  /-- What identifies it. -/
  id : String
  /-- The name of its type. -/
  type : String
  /-- Its name, free text. -/
  name : String
  /-- The horizontal place. -/
  x : Num
  /-- The vertical place. -/
  y : Num
  /-- The width. -/
  w : Num
  /-- The height. -/
  h : Num
  /-- The stored props. -/
  props : Table Json

namespace Element

/-- An element as a JSON value. -/
def toJson (e : Element) : Json :=
  .obj [("id", .str e.id), ("type", .str e.type), ("name", .str e.name), ("x", .num e.x),
    ("y", .num e.y), ("w", .num e.w), ("h", .num e.h), ("props", .obj e.props.entries)]

/-! ## Effective props -/

/-- The ASCII letters and digits of a text. -/
def alphanumerics (s : List Char) : List Char := s.filter Char.isAlphanum

/-- The variable of a slider that names none: the letters, digits and underscores of its name,
after a word when a letter or an underscore has to come first. -/
def sliderVariable (name : List Char) : List Char :=
  let base := name.filter (fun c => c.isAlphanum || c == '_')
  let base :=
    match base with
    | [] => "slider".toList
    | c :: _ => if c.isDigit then "slider".toList ++ base else base
  base ++ "Val".toList

/-- The stored value of a prop; null counts as none. -/
def storedProp? (e : Element) (key : String) : Option Json :=
  match e.props.get? key with
  | some .null => none
  | stored => stored

/-- The value that a prop has in effect, if any: the stored one, else half the width for the
radius of a circle and a variable made from the name for a slider, else the default. -/
def resolveProp (e : Element) (key : String) : Except NumberError (Option Json) :=
  match e.storedProp? key with
  | some v => .ok (some v)
  | none =>
    if key = "radius" ∧ (e.type = ElementType.circle.name ∨ e.type = ElementType.circleOutline.name)
    then e.w.half.map (fun r => some (.num r))
    else if key = "var" ∧ e.type = ElementType.slider.name then
      .ok (some (.str (String.ofList (sliderVariable e.name.toList))))
    else .ok ((propSpec? e.type key).bind PropSpec.default?)

/-! ## Creation -/

/-- The props that a new element of a type has beyond the defaults. -/
def creationProps : ElementType → List (String × Json)
  | .text => [("text", .str "Label")]
  | .circle => [("radius", .ofInt 50)]
  | .circleOutline => [("radius", .ofInt 50), ("thickness", .ofInt 4)]
  | .slider => [("var", .str "sliderVal")]
  | _ => []

/-- The defaults of a type, as far as it has them. -/
def defaultProps (t : ElementType) : List (String × Json) :=
  t.props.filterMap (fun p => p.default?.map (p.key, ·))

/-- A new element of a type, at a place. -/
def ofType (t : ElementType) (id : String) (x y : Num) : Element where
  id := id
  type := t.name
  name := t.name ++ "_" ++ id
  x := x
  y := y
  w := t.defaultSize.1
  h := t.defaultSize.2
  props := Table.ofList (defaultProps t ++ creationProps t)

/-- A new element of the type of a name, if that can be created. -/
def create? (type id : String) (x y : Num) : Option Element :=
  match ElementType.ofName? type with
  | some t => if t.isCreatable then some (ofType t id x y) else none
  | none => none

end Element

end SceneScript
