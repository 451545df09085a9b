import SceneScript.Element.Basic
import SceneScript.Text.Blank

/-!
# Editing an element

An edit answers whether it did something, or fails, and gives the element afterwards. A move that
fails on its vertical part has already gone along the horizontal one; every other failure leaves
the element as it was.
-/

namespace SceneScript.Element

/-- What an edit answers, and the element after it. -/
abbrev Edited := Except NumberError Bool × Element

/-- The element at another place. -/
def setPosition (e : Element) (x y : Num) : Edited := (.ok true, { e with x := x, y := y })

/-- The element moved along horizontally. -/
def moveAcross (e : Element) (dx : Num) : Edited :=
  match e.x.add dx with
  | .ok x => (.ok true, { e with x := x })
  | .error err => (.error err, e)

/-- The element moved along vertically. -/
def moveDown (e : Element) (dy : Num) : Edited :=
  match e.y.add dy with
  | .ok y => (.ok true, { e with y := y })
  | .error err => (.error err, e)

/-- The element moved along, first horizontally, then vertically. -/
def moveBy (e : Element) (dx dy : Num) : Edited :=
  match e.moveAcross dx with
  | (.ok _, e) => e.moveDown dy
  | failed => failed

/-- The element with another width, no smaller than a least one. -/
def setWidth (least : Num) (e : Element) (w : Num) : Edited :=
  (.ok true, { e with w := least.max w })

/-- The element with another size, no smaller than a least one. -/
def resize (least : Num) (e : Element) (w h : Num) : Edited :=
  (.ok true, { e with w := least.max w, h := least.max h })

/-- The element with a value under a prop of its type. A value that may not be stored changes
nothing, and null removes the prop. -/
def setProperty (e : Element) (key : String) (value : Json) : Edited :=
  match coerceProp e.type key value with
  | .error err => (.error err, e)
  | .ok none => (.ok false, e)
  | .ok (some .null) => (.ok true, { e with props := e.props.erase key })
  | .ok (some v) => (.ok true, { e with props := e.props.insert key v })

/-- The element with another name. A blank name changes nothing. -/
def rename (e : Element) (name : String) : Edited :=
  let name := Text.trimString name
  if name.isEmpty then (.ok false, e) else (.ok true, { e with name := name })

end SceneScript.Element
