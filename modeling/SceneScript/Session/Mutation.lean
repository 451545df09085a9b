import SceneScript.Json.Value

/-!
# Mutations

The nine ways in which the scene of a session is changed, and their names.
-/

namespace SceneScript

/-- A change of the scene of a session. -/
inductive Mutation where
  /-- A new element of a type. -/
  | createElement (type : String)
  /-- An element is removed. -/
  | deleteElement (id : String)
  /-- The selected elements are removed. -/
  | deleteSelected
  /-- Some ids are selected. -/
  | setSelection (ids : List String)
  /-- An element is put at a place. -/
  | setPosition (id : String) (x y : Num)
  /-- An element is moved. -/
  | moveBy (id : String) (dx dy : Num)
  /-- An element gets a size. -/
  | resize (id : String) (w h : Num)
  /-- A prop of an element gets a value. -/
  | setProperty (id key : String) (value : Json)
  /-- An element gets a name. -/
  | rename (id name : String)

namespace Mutation

/-- A kind of mutation. -/
inductive Operation where
  | createElement
  | deleteElement
  | deleteSelected
  | setSelection
  | setPosition
  | moveBy
  | resize
  | setProperty
  | rename
  deriving DecidableEq, Repr

namespace Operation

/-- The kinds of mutations. -/
def all : List Operation :=
  [.createElement, .deleteElement, .deleteSelected, .setSelection, .setPosition, .moveBy, .resize,
    .setProperty, .rename]

/-- The name of a kind. -/
def name : Operation → String
  | .createElement => "create_element"
  | .deleteElement => "delete_element"
  | .deleteSelected => "delete_selected"
  | .setSelection => "set_selection"
  | .setPosition => "set_position"
  | .moveBy => "move_by"
  | .resize => "resize"
  | .setProperty => "set_property"
  | .rename => "rename"

/-- The kind of a name. -/
def ofName? (s : String) : Option Operation := all.find? (fun op => op.name = s)

end Operation

end Mutation

end SceneScript
