import SceneScript.Config.Basic
import SceneScript.Element.Edit
import SceneScript.Merge.Reconcile
import SceneScript.Scene.Basic
import SceneScript.Script.Patch
import SceneScript.Script.Reader
import SceneScript.Session.Mutation

/-!
# Sessions

A session holds a scene and a script and keeps the one up to date with the other. Mutations change
the scene alone, `regenerate` patches the script, `apply` does both, and `ingest` takes a script and
reconciles the scene with it.

Every step gives the session after it, also when it fails: a failure may come late, with a part of
the change done.
-/

namespace SceneScript

/-- A session, with what hands out its ids. -/
structure Session (σ : Type) where
  /-- The configuration. -/
  config : EditorConfig
  /-- The scene. -/
  scene : Scene
  /-- The script. -/
  code : List Char
  /-- The decisions of the last script taken in. -/
  decisions : List Decision
  /-- What hands out ids. -/
  allocator : Allocator σ
  /-- The state of what hands out ids. -/
  ids : σ

/-- Why a step fails. -/
inductive SessionError where
  /-- A number cannot be had. -/
  | number (cause : NumberError)
  /-- An element of this type cannot be created. -/
  | unknownType (type : String)
  deriving DecidableEq, Repr

/-- The words for an error. -/
def SessionError.message : SessionError → String
  | .number cause => cause.message
  | .unknownType type => "cannot create element of type: " ++ type

/-- What a step answers. -/
inductive Outcome where
  /-- Nothing. -/
  | nothing
  /-- Whether something was done. -/
  | done (b : Bool)
  /-- The id of a new element. -/
  | created (id : String)
  /-- The ids selected. -/
  | selected (ids : List String)
  /-- What was decided. -/
  | decided (decisions : List Decision)

/-- A step of a session. -/
inductive SessionStep where
  /-- A mutation alone. -/
  | mutate (m : Mutation)
  /-- A mutation, and the script patched. -/
  | apply (m : Mutation)
  /-- The script is patched. -/
  | regenerate
  /-- A script is taken in, and patched if asked for. -/
  | ingest (text : List Char) (regenerate : Bool)

namespace Session

variable {σ : Type}

/-- A fresh session; without a script it has the placeholder. -/
def start (config : EditorConfig) (scene : Scene) (code? : Option (List Char))
    (allocator : Allocator σ) (ids : σ) : Session σ :=
  ⟨config, scene, code?.getD config.placeholder.toList, [], allocator, ids⟩

/-- What a step answers, and the session after it. -/
abbrev Stepped (σ : Type) := Except SessionError Outcome × Session σ

/-! ## Mutations -/

/-- A new element of a type is created. The id is handed out before the type is looked at. -/
def create (s : Session σ) (type : String) : Stepped σ :=
  let (id, ids) := s.allocator s.scene.elements.keys s.ids
  let s := { s with ids := ids }
  match Element.create? type id s.config.spawnX s.config.spawnY with
  | none => (.error (.unknownType type), s)
  | some e => (.ok (.created id), { s with scene := s.scene.add e })

/-- The element under a key is edited, if there is one. -/
def edit (s : Session σ) (key : String) (f : Element → Element.Edited) : Stepped σ :=
  match s.scene.elements.get? key with
  | none => (.ok (.done false), s)
  | some e =>
    let (answer, e) := f e
    let s := { s with scene := s.scene.replace key e }
    match answer with
    | .ok b => (.ok (.done b), s)
    | .error err => (.error (.number err), s)

/-- The session after a mutation. -/
def mutate (s : Session σ) : Mutation → Stepped σ
  | .createElement type => s.create type
  | .deleteElement id =>
    if s.scene.elements.contains id then
      (.ok (.done true), { s with scene := s.scene.remove id })
    else (.ok (.done false), s)
  | .deleteSelected =>
    if s.scene.selection.isEmpty then (.ok (.done false), s)
    else (.ok (.done true), { s with scene := s.scene.removeSelected })
  | .setSelection ids =>
    let scene := s.scene.select ids
    (.ok (.selected scene.selection), { s with scene := scene })
  | .setPosition id x y => s.edit id (fun e => e.setPosition x y)
  | .moveBy id dx dy => s.edit id (fun e => e.moveBy dx dy)
  | .resize id w h => s.edit id (fun e => e.resize s.config.minExtent w h)
  | .setProperty id key value => s.edit id (fun e => e.setProperty key value)
  | .rename id name => s.edit id (fun e => e.rename name)

/-! ## The script -/

/-- The session with its script patched for its scene. -/
def regenerate (s : Session σ) : Stepped σ :=
  match s.scene.patch s.code with
  | .ok code => (.ok .nothing, { s with code := code })
  | .error err => (.error (.number err), s)

/-- A step, then the script patched; the answer is that of the step. -/
def thenRegenerate : Stepped σ → Stepped σ
  | (.error err, s) => (.error err, s)
  | (.ok outcome, s) =>
    match s.regenerate with
    | (.ok _, s) => (.ok outcome, s)
    | (.error err, s) => (.error err, s)

/-- The session with its scene reconciled with a script, which becomes its script. -/
def takeIn (s : Session σ) (text : List Char) : Stepped σ :=
  match candidatesOf text with
  | .error err => (.error (.number err), s)
  | .ok candidates =>
    let (r, ids) := s.scene.reconcile s.allocator candidates s.ids
    (.ok (.decided r.decisions),
      { s with scene := r.scene, code := text, decisions := r.decisions, ids := ids })

/-- The session after a script is taken in, and patched if asked for. -/
def ingest (s : Session σ) (text : List Char) (regenerate : Bool) : Stepped σ :=
  let stepped := s.takeIn text
  if regenerate then thenRegenerate stepped else stepped

/-! ## Runs -/

/-- The session after a step. -/
def step (s : Session σ) : SessionStep → Stepped σ
  | .mutate m => s.mutate m
  | .apply m => thenRegenerate (s.mutate m)
  | .regenerate => s.regenerate
  | .ingest text regenerate => s.ingest text regenerate

/-- The session after some steps, failing ones included. -/
def run (s : Session σ) (steps : List SessionStep) : Session σ :=
  steps.foldl (fun s step => (s.step step).2) s

end Session

end SceneScript
