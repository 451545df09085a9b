import SceneScript.Identity.Allocator
import SceneScript.Scene.Basic
import SceneScript.Script.Candidate

/-!
# Reconciling a script with a scene

`Scene.reconcile` makes a scene of the candidates of a script, in their order, and keeps the
identities of the scene before: a candidate takes over the element whose id its marker gives, else
the first element of its marker's name, and otherwise becomes a new element under the id of its
marker or a fresh one. Elements that no candidate takes over stay, behind the others. Without
candidates the scene stays as it is.

Every element of the result comes with a decision that says how it got its id.
-/

namespace SceneScript

/-! ## Decisions -/

/-- How an element of the result got its id. -/
inductive Reason where
  /-- The marker gives the id of an element. -/
  | idMatch
  /-- The marker gives the name of an element. -/
  | nameMatch
  /-- The marker gives an id that is free. -/
  | metadataId
  /-- The id is fresh. -/
  | freshId
  /-- The script has no such element. -/
  | notInScript
  deriving DecidableEq, Repr

namespace Reason

/-- The word for a reason. -/
def word : Reason → String
  | .idMatch => "ID_MATCH"
  | .nameMatch => "NAME_MATCH"
  | .metadataId => "METADATA_ID"
  | .freshId => "FRESH_ID"
  | .notInScript => "NOT_IN_SCRIPT"

/-- The word for what is done for a reason. -/
def action : Reason → String
  | .idMatch | .nameMatch => "UPDATE_EXISTING"
  | .metadataId | .freshId => "ADD_NEW"
  | .notInScript => "KEEP_EXISTING"

end Reason

/-- What was decided about an element. -/
structure Decision where
  /-- The id of the element. -/
  id : String
  /-- How it got the id. -/
  reason : Reason
  /-- Which candidate it comes from, counted from zero. -/
  candidate? : Option Nat
  /-- The line of that candidate. -/
  line? : Option Int
  deriving DecidableEq, Repr

/-- A whole number as a value, nothing as null. -/
def Json.ofOptionInt : Option Int → Json
  | none => .null
  | some n => .ofInt n

/-- A decision as a JSON value. -/
def Decision.toJson (d : Decision) : Json :=
  .obj [("element_id", .str d.id), ("action", .str d.reason.action), ("reason", .str d.reason.word),
    ("candidate_index", Json.ofOptionInt (d.candidate?.map Int.ofNat)),
    ("line_no", Json.ofOptionInt d.line?)]

/-- A scene with the decisions that led to it. -/
structure Reconciled where
  /-- The scene. -/
  scene : Scene
  /-- The decisions, element by element. -/
  decisions : List Decision

/-! ## One candidate -/

/-- Props with others put over them. Of the former only those that the type has are kept. -/
def mergeProps (existing incoming : Table Json) (type : String) : Table Json :=
  (existing.filter (fun p => (propSpec? type p.1).isSome)).merge incoming

/-- The first of two texts, if it is there and not empty. -/
def nonemptyOr (first? : Option String) (second : String) : String :=
  match first? with
  | some s => if s.isEmpty then second else s
  | none => second

namespace Candidate

/-- The id on the marker of a candidate, unless it is empty. -/
def markedId? (c : Candidate) : Option String := c.id?.filter (fun id => !id.isEmpty)

/-- The element that a candidate makes of an existing one. -/
def update (c : Candidate) (e : Element) : Element :=
  ⟨e.id, c.type, nonemptyOr c.name? e.name, c.x, c.y, c.w, c.h, mergeProps e.props c.props c.type⟩

/-- The element that a candidate makes under a new id. -/
def create (c : Candidate) (id : String) : Element :=
  ⟨id, c.type, nonemptyOr c.name? (c.type ++ "_" ++ id), c.x, c.y, c.w, c.h, c.props⟩

/-- The element of a scene that a candidate takes over by id, unless it is claimed. -/
def idMatch? (c : Candidate) (s : Scene) (claimed : List String) : Option Element :=
  c.markedId?.bind (fun id => if claimed.contains id then none else s.elements.get? id)

/-- The element of a scene that a candidate takes over by name: the first one not claimed. -/
def nameMatch? (c : Candidate) (s : Scene) (claimed : List String) : Option Element :=
  c.name?.bind (fun name =>
    s.orderedElements.find? (fun e => e.name = name && !claimed.contains e.id))

/-- The element of a scene that a candidate takes over, and why. -/
def match? (c : Candidate) (s : Scene) (claimed : List String) : Option (Element × Reason) :=
  ((c.idMatch? s claimed).map (·, .idMatch)).or ((c.nameMatch? s claimed).map (·, .nameMatch))

end Candidate

/-! ## All candidates -/

/-- What a merge has made so far. -/
structure MergeState where
  /-- The elements made. -/
  elements : Table Element
  /-- Their ids, in order. -/
  order : List String
  /-- The decisions about them. -/
  decisions : List Decision
  /-- The ids of the elements taken over. -/
  claimed : List String

namespace MergeState

/-- The merge before its first candidate. -/
def start : MergeState := ⟨Table.empty, [], [], []⟩

/-- The merge with an element added. -/
def add (m : MergeState) (e : Element) (decision : Decision) : MergeState :=
  { m with
    elements := m.elements.insert e.id e
    order := m.order ++ [e.id]
    decisions := m.decisions ++ [decision] }

/-- The ids that a new element cannot have. -/
def inUse (m : MergeState) (s : Scene) : List String := s.elements.keys ++ m.elements.keys

/-- The id of a new element, and why it has it: the one on its marker if that is free, else a fresh
one. -/
def newId {σ : Type} (m : MergeState) (allocate : Allocator σ) (s : Scene) (c : Candidate)
    (state : σ) : (String × Reason) × σ :=
  match c.markedId?.filter (fun id => !(m.inUse s).contains id) with
  | some id => ((id, .metadataId), state)
  | none =>
    let (id, state) := allocate (m.inUse s) state
    ((id, .freshId), state)

/-- The merge after a candidate. -/
def step {σ : Type} (allocate : Allocator σ) (s : Scene) (m : MergeState) (index : Nat)
    (c : Candidate) (state : σ) : MergeState × σ :=
  match c.match? s m.claimed with
  | some (e, reason) =>
    let m := { m with claimed := e.id :: m.claimed }
    (m.add (c.update e) ⟨e.id, reason, some index, some c.line⟩, state)
  | none =>
    let ((id, reason), state) := m.newId allocate s c state
    (m.add (c.create id) ⟨id, reason, some index, some c.line⟩, state)

/-- The merge after some candidates, the first of them with an index. -/
def steps {σ : Type} (allocate : Allocator σ) (s : Scene) :
    MergeState → Nat → List Candidate → σ → MergeState × σ
  | m, _, [], state => (m, state)
  | m, index, c :: cs, state =>
    let (m, state) := m.step allocate s index c state
    steps allocate s m (index + 1) cs state

/-- The merge with an element kept, unless there is one of its id. -/
def keep (m : MergeState) (e : Element) : MergeState :=
  if m.elements.contains e.id then m else m.add e ⟨e.id, .notInScript, none, none⟩

/-- The scene and the decisions of a merge. -/
def result (m : MergeState) : Reconciled := ⟨⟨m.order, m.elements, []⟩, m.decisions⟩

end MergeState

/-- The scene that candidates make of a scene, with the decisions, and the state of the allocator
afterwards. -/
def Scene.reconcile {σ : Type} (allocate : Allocator σ) (s : Scene) (candidates : List Candidate)
    (state : σ) : Reconciled × σ :=
  match candidates with
  | [] => (⟨s, []⟩, state)
  | cs =>
    let (m, state) := MergeState.start.steps allocate s 0 cs state
    ((s.orderedElements.foldl MergeState.keep m).result, state)

end SceneScript
