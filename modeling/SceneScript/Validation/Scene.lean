import SceneScript.Element.Props
import SceneScript.Validation.Check

/-!
# Validating scene documents

`Validation.issues` are the broken rules of a document. First come the rules on its shape, in the
order of the paths; only when the shape is right do the rules follow that tie its parts together:
keys are ids, props belong to their type, the order is a permutation of the ids, and what is
selected exists. There are no issues to report of a document of which one cannot be put into words.
-/

namespace SceneScript.Validation

/-! ## The shape of a document -/

/-- The members of an element. -/
def elementFields : List (String × Check) :=
  [("id", .all [.ofTypes [.string], .nonEmpty, .solid]),
    ("type", .oneOf ((ElementType.all.filter ElementType.isCreatable).map ElementType.name)),
    ("name", .all [.ofTypes [.string], .nonEmpty, .visible]),
    ("x", .ofTypes [.number]),
    ("y", .ofTypes [.number]),
    ("w", .all [.ofTypes [.number], .nonNegative]),
    ("h", .all [.ofTypes [.number], .nonNegative]),
    ("props", .all [.ofTypes [.object], .members (.ofTypes [.string, .number, .null])])]

/-- The shape of an element. -/
def elementCheck : Check :=
  .all [.ofTypes [.object], .required (elementFields.map Prod.fst),
    .closed (elementFields.map Prod.fst), .properties elementFields]

/-- The shape of a list of ids. -/
def idsCheck (origin : Json.Origin) : Check :=
  .all [.ofTypes [.array], .items (.all [.ofTypes [.string], .nonEmpty]), .unique origin]

/-- The members of a document. -/
def documentFields (origin : Json.Origin) : List (String × Check) :=
  [("schema_version", .all [.ofTypes [.string], .constant "1.0.0"]),
    ("root_order", idsCheck origin),
    ("elements", .all [.ofTypes [.object], .members elementCheck]),
    ("selection", idsCheck origin)]

/-- The shape of a document. -/
def documentCheck (origin : Json.Origin) : Check :=
  .all [.ofTypes [.object], .required ["schema_version", "root_order", "elements"],
    .closed ((documentFields origin).map Prod.fst), .properties (documentFields origin)]

/-! ## What ties the parts together -/

/-- The members of an object. -/
def membersOf (v : Json) : List (String × Json) :=
  match v with
  | .obj members => members
  | _ => []

/-- The items of an array. -/
def itemsOf (v : Json) : List Json :=
  match v with
  | .arr items => items
  | _ => []

/-- A member of an object, null if it is absent. -/
def memberOf (v : Json) (name : String) : Json := (v.member? name).getD .null

/-- The texts among some values. -/
def idsOf (items : List Json) : List String := items.filterMap Json.string?

/-- An element stands under its id. -/
def keyFindings (key : String) (element : Json) : List Finding :=
  let id := memberOf element "id"
  if id.isText key then []
  else
    [⟨[.key "elements", .key key, .key "id"],
      id.shown.map fun shown =>
        String.ofList ("element id ".toList ++ shown ++ " does not match its key".toList),
      "scene_invariant"⟩]

/-- The props of an element belong to its type. -/
def propFindings (key : String) (element : Json) : List Finding :=
  let type := memberOf element "type"
  (membersOf (memberOf element "props")).flatMap fun prop =>
    match propSpec? type.stringD prop.1 with
    | some _ => []
    | none =>
      [⟨[.key "elements", .key key, .key "props", .key prop.1],
        type.shown.map fun shown =>
          String.ofList ("prop ".toList ++ Text.quoted prop.1.toList
            ++ " is not defined for type ".toList ++ shown),
        "prop_schema"⟩]

/-- The order is a permutation of the keys. -/
def orderFindings (order keys : List String) : List Finding :=
  if order.isPerm keys then []
  else
    [⟨[.key "root_order"], .ok "root_order must be a permutation of element ids",
      "scene_invariant"⟩]

/-- What is selected exists; the first id has an index. -/
def selectionFindings (keys : List String) : Nat → List String → List Finding
  | _, [] => []
  | n, id :: ids =>
    (if keys.contains id then []
      else
        [⟨[.key "selection", .index n],
          .ok ("selected id " ++ Text.quotedString id ++ " is not an element"),
          "scene_invariant"⟩]) ++ selectionFindings keys (n + 1) ids

/-- The findings about a document of the right shape. -/
def invariantFindings (document : Json) : List Finding :=
  let elements := membersOf (memberOf document "elements")
  let keys := elements.map Prod.fst
  elements.flatMap (fun e => keyFindings e.1 e.2 ++ propFindings e.1 e.2)
    ++ orderFindings (idsOf (itemsOf (memberOf document "root_order"))) keys
    ++ selectionFindings keys 0 (idsOf (itemsOf (memberOf document "selection")))

/-! ## Issues -/

/-- A broken rule, as it is reported. -/
structure Issue where
  /-- The path to the part that it is about. -/
  path : String
  /-- What is wrong. -/
  message : String
  /-- The keyword of the rule. -/
  keyword : String
  deriving DecidableEq, Repr

/-- A finding as an issue, if it can be put into words. -/
def Finding.issue (f : Finding) : Except NumberError Issue :=
  f.message.map fun message => ⟨f.path.shown, message, f.keyword⟩

/-- An issue as a JSON value. -/
def Issue.toJson (i : Issue) : Json :=
  .obj [("path", .str i.path), ("message", .str i.message), ("validator", .str i.keyword)]

/-- What is found wrong with a document that was made somewhere. -/
def findings (origin : Json.Origin) (document : Json) : List Finding :=
  match inPathOrder (documentCheck origin document) with
  | [] => invariantFindings document
  | shape => shape

/-- The issues of a document that was made somewhere, if they can be put into words. -/
def issues (origin : Json.Origin) (document : Json) : Except NumberError (List Issue) :=
  (findings origin document).mapM Finding.issue

/-- The word for whether there are issues. -/
def status (issues : List Issue) : String := if issues.isEmpty then "PASS" else "FAIL"

end SceneScript.Validation
