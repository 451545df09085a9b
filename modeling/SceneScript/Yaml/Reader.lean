import SceneScript.Text.Utf8
import SceneScript.Yaml.Node
import SceneScript.Yaml.Scalar

/-!
# Reading YAML

The program reads the files of its configurations with `read`; what commands do is said for any
reader at all (`Command.Environment.readYaml`). This one knows block mappings and lists, lists and
mappings in brackets, plain and quoted scalars, comments, markers of documents and merged mappings.
Block scalars, anchors, aliases, tags and directives are refused (`Fault.unsupported`).

`Value.ofNode` makes the value of a node: quoted scalars are texts, plain ones stand for what they
have the form of. Of several members of a mapping under one text the last is kept.
-/

namespace SceneScript.Yaml

namespace Value

/-! ## Values of nodes -/

/-- The tag of the scalar that stands for the value of a mapping as a whole. -/
def valueTag : String := "tag:yaml.org,2002:value"

/-- The tag of the key under which mappings are merged. -/
def mergeTag : String := "tag:yaml.org,2002:merge"

/-- What a scalar of one form stands for, or another value where it has not that form. -/
def ofForm {α : Type} (form : Form α) (value : α → Value) (otherwise : Except Fault Value) :
    Except Fault Value :=
  match form with
  | some r => r.map value
  | none => otherwise

/-- The value of a plain scalar at a place. -/
def ofPlain (mark : Mark) (s : List Char) : Except Fault Value :=
  match truth? s with
  | some b => .ok (.json (.bool b))
  | none =>
    ofForm (double? s) (fun x => .json (.num (.double x))) <|
    ofForm (whole? s) (fun n => .json (.num (.int n))) <|
    if s = ['<', '<'] then .error (.noValue mergeTag mark)
    else if isNull s then .ok (.json .null)
    else
      ofForm (moment? s) .moment <|
      if s = ['='] then .error (.noValue valueTag mark)
      else .ok (.json (.str (String.ofList s)))

/-- Whether a node is the key under which mappings are merged. -/
def isMerge : Node → Bool
  | .scalar _ true ['<', '<'] => true
  | _ => false

/-- The key of a node, if it is a text; a list or a mapping can be none. -/
def keyOf (start : Mark) (node : Node) : Except Fault (Option String) :=
  match node with
  | .scalar _ false text => .ok (some (String.ofList text))
  | .scalar mark true text =>
    if text = ['='] then .ok (some "=")
    else do
      match ← ofPlain mark text with
      | .json (.str s) => return some s
      | _ => return none
  | node => .error (.keyNotScalar start node.mark)

/-- The members of a mapping at a place, with those before its own that it gets from a mapping, or a
list of mappings, under the key of merging; of a list the first mapping has the last word. `fuel`
bounds how deep merged mappings merge others. -/
def flatMembers : Nat → Mark → List (Node × Node) → Except Fault (List (Node × Node))
  | 0, start, _ => .error (.unsupported start)
  | fuel + 1, start, members => do
    let merged ← (members.filter (fun m => isMerge m.1)).mapM fun m =>
      match m.2 with
      | .mapping inner members => flatMembers fuel inner members
      | .list _ items => do
        let parts ← items.mapM fun item =>
          match item with
          | .mapping inner members => flatMembers fuel inner members
          | item => .error (.mergeOf item.word true start item.mark)
        return parts.reverse.flatten
      | node => .error (.mergeOf node.word false start node.mark)
    return merged.flatten ++ members.filter (fun m => !isMerge m.1)

/-- The value of a node; `fuel` bounds its depth. -/
def ofNode : Nat → Node → Except Fault Value
  | _, .scalar _ false text => .ok (.json (.str (String.ofList text)))
  | _, .scalar mark true text => ofPlain mark text
  | 0, node => .error (.unsupported node.mark)
  | fuel + 1, .list _ items => (items.mapM (ofNode fuel)).map .list
  | fuel + 1, .mapping mark members => do
    let members ← flatMembers (fuel + 1) mark members
    let entries ← members.mapM fun m => do
      let key? ← keyOf mark m.1
      let v ← ofNode fuel m.2
      return key?.map (fun key => (key, v))
    return .mapping (Entries.ofList (entries.filterMap id))

/-! ## The first fault

Values are made level by level: a fault in a collection shows before one in a collection inside an
earlier part of it.
-/

/-- A node, if it is a collection; a scalar has to have a value. -/
def collection? : Node → Except Fault (List Node)
  | .scalar _ false _ => .ok []
  | .scalar mark true text => (ofPlain mark text).map (fun _ => [])
  | node => .ok [node]

/-- The collections directly inside a node; its scalars have to have values, and its keys to be
keys. -/
def collectionsIn (fuel : Nat) : Node → Except Fault (List Node)
  | .list _ items => (items.mapM collection?).map List.flatten
  | .mapping mark members => do
    let members ← flatMembers fuel mark members
    let parts ← members.mapM fun m => do
      let _ ← keyOf mark m.1
      collection? m.2
    return parts.flatten
  | .scalar .. => .ok []

/-- The collections of one level, and those inside them, hold what they may. -/
def checkLevels : Nat → List Node → Except Fault Unit
  | 0, _ | _, [] => .ok ()
  | fuel + 1, level => do
    let inner ← level.mapM (collectionsIn (fuel + 1))
    checkLevels fuel inner.flatten

/-- The value of a document of which no node is deeper than some levels. -/
def ofDocument (depth : Nat) (node : Node) : Except Fault Value := do
  checkLevels depth (← collection? node)
  ofNode depth node

end Value

/-! ## Reading

A text without a document is null.
-/

/-- The first character of a text that may not stand there, with its offset. -/
def refused? (s : List Char) : Option (Char × Nat) :=
  (s.zipIdx.find? (fun c => !isAcceptable c.1))

/-- The value that a text writes. -/
def parse (s : List Char) : Except Fault Value :=
  let s := Text.unifyBreaks s
  match refused? s with
  | some (c, offset) => .error (.unacceptable c offset)
  | none => do
    match ← (tokensOf s).document? with
    | none => return .json .null
    | some node => Value.ofDocument (s.length + 1) node

/-- How many bytes of a file are read at a time. -/
def blockSize : Nat := 8192

/-- The value that the bytes of a file write, or the words for what is wrong with them. -/
def read (path : String) (bytes : List UInt8) : Except String Value := do
  let text ← (Text.Utf8.decodeBlocks blockSize bytes).mapError Text.Utf8.Malformed.message
  (parse text).mapError (Fault.message path)

end SceneScript.Yaml
