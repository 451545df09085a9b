import SceneScript.Json.Writer
import SceneScript.Scene.Basic

/-!
# Loading scenes

`RawScene.ofDocument` loads any JSON value or says why it cannot. Loading is lenient about texts,
for which any value is taken that can be written as one, about the members of collections, for which
any value that can be walked through is taken, and about places and sizes, which it takes as they
are; it is strict about what is missing, and about the order, which has to be a permutation of the
keys.

`Scene.ofDocument` is the scene that is loaded where all places and sizes are numbers. No other
scene can be worked with.
-/

namespace SceneScript

/-! ## What can go wrong -/

/-- What is wrong with an element of a document. -/
inductive PayloadFault where
  /-- A member is missing. -/
  | missing (field : String)
  /-- The element is no object. -/
  | notObject (kind : ValueKind)
  /-- The props cannot be walked through. -/
  | notIterable (kind : ValueKind)
  /-- A part of the props cannot be walked through. -/
  | notPair (index : Nat)
  /-- A key of the props cannot be one. -/
  | notKey (kind : ValueKind)
  /-- A place or a size is no number. -/
  | notNumber (field : String)
  deriving DecidableEq, Repr

/-- The words for a fault. -/
def PayloadFault.message : PayloadFault → String
  | .missing field => Text.quotedString field
  | .notObject .array => "list indices must be integers or slices, not str"
  | .notObject .string => "string indices must be integers, not \x27str\x27"
  | .notObject kind => "\x27" ++ kind.word ++ "\x27 object is not subscriptable"
  | .notIterable kind => "\x27" ++ kind.word ++ "\x27 object is not iterable"
  | .notPair index =>
    "cannot convert dictionary update sequence element #" ++ String.ofList (decimalDigits index)
      ++ " to a sequence"
  | .notKey kind => "unhashable type: \x27" ++ kind.word ++ "\x27"
  | .notNumber field => Text.quotedString field ++ " is not a number"

/-- Why a document is no scene. -/
inductive SceneError where
  /-- The document is no object. -/
  | rootNotObject
  /-- Its elements are no object. -/
  | elementsNotObject
  /-- An element cannot be read. -/
  | invalidElement (fault : PayloadFault)
  /-- The order is no permutation of the keys. -/
  | notPermutation
  /-- A part of an element's props has not two items. -/
  | pairLength (index length : Nat)
  /-- The order or the selection cannot be walked through. -/
  | notIterable (kind : ValueKind)
  /-- A selected value cannot be looked up. -/
  | notKey (kind : ValueKind)
  /-- A value cannot be taken as a text. -/
  | number (cause : NumberError)
  deriving DecidableEq, Repr

/-- The words for an error. -/
def SceneError.message : SceneError → String
  | .rootNotObject => "scene document root must be an object"
  | .elementsNotObject => "elements must be an object"
  | .invalidElement fault => "invalid element payload: " ++ fault.message
  | .notPermutation => "root_order must be a permutation of element ids"
  | .pairLength index length =>
    "dictionary update sequence element #" ++ String.ofList (decimalDigits index)
      ++ " has length " ++ String.ofList (decimalDigits length) ++ "; 2 is required"
  | .notIterable kind => "\x27" ++ kind.word ++ "\x27 object is not iterable"
  | .notKey kind => "unhashable type: \x27" ++ kind.word ++ "\x27"
  | .number cause => cause.message

/-! ## Walking through values -/

/-- The items of a value that can be walked through: the items of an array, the characters of a
text, the names of an object's members. -/
def Json.items? : Json → Option (List Json)
  | .arr items => some items
  | .str s => some (s.toList.map (fun c => .str (String.ofList [c])))
  | .obj members => some (members.map (fun m => .str m.1))
  | _ => none

/-- Whether a value is empty: null, false, zero, and what has no items. -/
def Json.isEmpty : Json → Bool
  | .null => true
  | .bool b => !b
  | .num v => v.eqv 0
  | .str s => s.isEmpty
  | .arr items => items.isEmpty
  | .obj members => members.isEmpty

/-- Whether a value can be looked up in a table. -/
def Json.isKey : Json → Bool
  | .arr _ | .obj _ => false
  | _ => true

/-- A value as a text, if it can be one. -/
def Json.taken (v : Json) : Except SceneError String := v.text.mapError SceneError.number

/-! ## Elements -/

/-- An element as it is loaded, with places and sizes of any kind. -/
structure RawElement where
  /-- The id. -/
  id : String
  /-- The name of the type. -/
  type : String
  /-- The name. -/
  name : String
  /-- The horizontal place. -/
  x : Json
  /-- The vertical place. -/
  y : Json
  /-- The width. -/
  w : Json
  /-- The height. -/
  h : Json
  /-- The props. -/
  props : Table Json

namespace RawElement

/-- A member of an element's object. -/
def field (members : List (String × Json)) (name : String) : Except SceneError Json :=
  match Entries.get? members name with
  | some v => .ok v
  | none => .error (.invalidElement (.missing name))

/-- What keys of props are compared by: a truth value is the number one or zero. -/
def keySameness : Json.Sameness := ⟨.memory, true⟩

/-- A value as a key of props: a text stands for itself, any other value is written as JSON. -/
def propKey : Json → String
  | .str s => s
  | v => String.ofList (Json.written .line 0 v)

/-- Props with a value put under a key that may be any value: in the place of the key, whose first
form stays, or at the end. -/
def insertPair (props : List (Json × Json)) (key value : Json) : List (Json × Json) :=
  match props with
  | [] => [(key, value)]
  | (k, v) :: rest =>
    if k.eqv keySameness key then (k, value) :: rest else (k, v) :: insertPair rest key value

/-- Props with those put in that a sequence of pairs gives, from an index on. -/
def propsOfPairs (props : List (Json × Json)) :
    Nat → List Json → Except SceneError (List (Json × Json))
  | _, [] => .ok props
  | index, item :: rest =>
    match item.items? with
    | none => .error (.invalidElement (.notPair index))
    | some [key, value] =>
      if key.isKey then propsOfPairs (insertPair props key value) (index + 1) rest
      else .error (.invalidElement (.notKey key.kind))
    | some other => .error (.pairLength index other.length)

/-- Props under keys of any values as a table. -/
def propsTable (props : List (Json × Json)) : Table Json :=
  Table.ofList (props.map (fun p => (propKey p.1, p.2)))

/-- The props of an element's object: an object's members, or pairs; an empty value is none. -/
def propsOf (v : Json) : Except SceneError (Table Json) :=
  if v.isEmpty then .ok Table.empty
  else
    match v with
    | .obj members => .ok (Table.ofList members)
    | v =>
      match v.items? with
      | none => .error (.invalidElement (.notIterable v.kind))
      | some items => (propsOfPairs [] 0 items).map propsTable

/-- An element from a JSON value. -/
def ofJson (v : Json) : Except SceneError RawElement :=
  match v with
  | .obj members => do
    let id ← (← field members "id").taken
    let type ← (← field members "type").taken
    let name ← (← field members "name").taken
    let x ← field members "x"
    let y ← field members "y"
    let w ← field members "w"
    let h ← field members "h"
    let props ← propsOf ((Entries.get? members "props").getD .null)
    return ⟨id, type, name, x, y, w, h, props⟩
  | v => .error (.invalidElement (.notObject v.kind))

/-- A place or a size. -/
def geometry (name : String) : Json → Except SceneError Num
  | .num v => .ok v
  | _ => .error (.invalidElement (.notNumber name))

/-- An element as it is loaded, if its places and sizes are numbers. -/
def toElement (e : RawElement) : Except SceneError Element := do
  let x ← geometry "x" e.x
  let y ← geometry "y" e.y
  let w ← geometry "w" e.w
  let h ← geometry "h" e.h
  return ⟨e.id, e.type, e.name, x, y, w, h, e.props⟩

end RawElement

/-- An element from a JSON value, if its places and sizes are numbers. -/
def Element.ofJson (v : Json) : Except SceneError Element := RawElement.ofJson v >>= (·.toElement)

/-! ## Scenes -/

/-- A scene as it is loaded. -/
structure RawScene where
  /-- The keys of the elements, from back to front. -/
  order : List String
  /-- The elements by key. -/
  elements : Table RawElement
  /-- The selected ids. -/
  selection : List String

namespace RawScene

/-- The elements of a document, key by key. -/
def elementsOf : List (String × Json) → Except SceneError (List (String × RawElement))
  | [] => .ok []
  | (key, v) :: rest => do
    let e ← RawElement.ofJson v
    let es ← elementsOf rest
    return (key, e) :: es

/-- The members of a document's elements; a document without elements has none. -/
def membersOfElements (members : List (String × Json)) : Except SceneError (List (String × Json)) :=
  match Entries.get? members "elements" with
  | none => .ok []
  | some (.obj raw) => .ok raw
  | some _ => .error .elementsNotObject

/-- The items of a member of a document; an absent one has none. -/
def itemsOf (members : List (String × Json)) (name : String) : Except SceneError (List Json) :=
  match Entries.get? members name with
  | none => .ok []
  | some v =>
    match v.items? with
    | some items => .ok items
    | none => .error (.notIterable v.kind)

/-- The selected ids among some values: the texts that are keys of elements. -/
def selectionOf (elements : Table RawElement) : List Json → Except SceneError (List String)
  | [] => .ok []
  | v :: rest =>
    if v.isKey then do
      let ids ← selectionOf elements rest
      match v with
      | .str s => return if elements.contains s then s :: ids else ids
      | _ => return ids
    else .error (.notKey v.kind)

/-- A scene from a JSON value. -/
def ofDocument (v : Json) : Except SceneError RawScene :=
  match v with
  | .obj members => do
    let elements := Table.ofList (← elementsOf (← membersOfElements members))
    let order ← (← itemsOf members "root_order").mapM Json.taken
    if order.isPerm elements.keys then
      let selection ← selectionOf elements (← itemsOf members "selection")
      return ⟨order, elements, selection⟩
    else .error .notPermutation
  | _ => .error .rootNotObject

/-- Elements under their keys, if their places and sizes are numbers. -/
def numbered : List (String × RawElement) → Except SceneError (List (String × Element))
  | [] => .ok []
  | (key, e) :: rest => do
    let e ← e.toElement
    let es ← numbered rest
    return (key, e) :: es

/-- A scene as it is loaded, if the places and sizes of its elements are numbers. -/
def toScene (s : RawScene) : Except SceneError Scene := do
  let entries ← numbered s.elements.entries
  return ⟨s.order, Table.ofList entries, s.selection⟩

end RawScene

/-- A scene from a JSON value, if the places and sizes of its elements are numbers. -/
def Scene.ofDocument (v : Json) : Except SceneError Scene := RawScene.ofDocument v >>= (·.toScene)

end SceneScript
