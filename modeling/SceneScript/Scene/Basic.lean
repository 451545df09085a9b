import SceneScript.Element.Basic

/-!
# Scenes

A scene holds elements under keys, the order in which they are drawn, and the ids of the selected
ones. `Scene.Consistent` is what every scene of a session keeps: keys are ids, the order lists
every id once, and the selection names elements.
-/

namespace SceneScript

/-- A scene. -/
structure Scene where
  /-- The keys of the elements, from back to front. -/
  order : List String
  /-- The elements by key. -/
  elements : Table Element
  /-- The selected ids. -/
  selection : List String

namespace Scene

/-- The scene without elements. -/
def empty : Scene := ⟨[], Table.empty, []⟩

instance : Inhabited Scene := ⟨empty⟩

/-- The elements from back to front; keys without an element are passed over. -/
def orderedElements (s : Scene) : List Element := s.order.filterMap s.elements.get?

/-- The version of the scene documents. -/
def schemaVersion : String := "1.0.0"

/-- A scene as a document. -/
def toDocument (s : Scene) : Json :=
  .obj [("schema_version", .str schemaVersion), ("root_order", .arr (s.order.map Json.str)),
    ("elements", .obj (s.elements.entries.map (fun e => (e.1, e.2.toJson)))),
    ("selection", .arr (s.selection.map Json.str))]

/-- Keys are ids, the order lists each of them once, and the selection names elements, each once. -/
structure Consistent (s : Scene) : Prop where
  /-- Every element stands under its id. -/
  keys : ∀ entry ∈ s.elements.entries, entry.2.id = entry.1
  /-- The order lists the keys, each once. -/
  order : s.order.Perm s.elements.keys
  /-- The selection names no element twice. -/
  selection_nodup : s.selection.Nodup
  /-- The selection names elements. -/
  selection_mem : ∀ id ∈ s.selection, id ∈ s.elements.keys

/-! ## Editing

What is removed leaves the order and the selection too.
-/

/-- The scene with an element put in front of the others. -/
def add (s : Scene) (e : Element) : Scene :=
  { s with elements := s.elements.insert e.id e, order := s.order ++ [e.id] }

/-- The scene without an element. -/
def remove (s : Scene) (id : String) : Scene :=
  ⟨s.order.filter (· ≠ id), s.elements.erase id, s.selection.filter (· ≠ id)⟩

/-- The scene without the selected elements. -/
def removeSelected (s : Scene) : Scene :=
  let elements := s.elements.filter (fun entry => !s.selection.contains entry.1)
  ⟨s.order.filter elements.contains, elements, []⟩

/-- The ids of elements among some ids, each once. -/
def selectable (s : Scene) (ids : List String) : List String :=
  ids.foldl (fun selection id =>
    if s.elements.contains id && !selection.contains id then selection ++ [id] else selection) []

/-- The scene with another selection: the ids of elements among some ids, each once. -/
def select (s : Scene) (ids : List String) : Scene := { s with selection := s.selectable ids }

/-- The scene with another element under a key. -/
def replace (s : Scene) (key : String) (e : Element) : Scene :=
  { s with elements := s.elements.insert key e }

end Scene

end SceneScript
