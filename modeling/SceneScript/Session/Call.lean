import SceneScript.Json.Value
import SceneScript.Scene.Document
import SceneScript.Session.Basic

/-!
# Calls of mutations

A mutation can be called by its name with any JSON values. Values that are what the mutation asks
for make it `Session.mutate`. Of others a call looks at one after the other, as far as it has to: an
element that is not there ends it before anything else is looked at, and a call that is refused for
its last value has done its part with those before.
-/

namespace SceneScript

/-- Why a call fails. -/
inductive CallError where
  /-- There is no mutation of the name. -/
  | unknownOperation (name : String)
  /-- The values do not fit the mutation. -/
  | badArguments
  /-- A value that is to be a name is no text. -/
  | notText
  /-- The mutation, or the patch after it, fails. -/
  | step (cause : SessionError)
  deriving DecidableEq, Repr

/-- The words for an error. -/
def CallError.message : CallError → String
  | .unknownOperation name => "unknown session operation: " ++ name
  | .badArguments => "the arguments do not fit the operation"
  | .notText => "a name has to be a text"
  | .step cause => cause.message

namespace Session

variable {σ : Type}

/-- What a call answers, and the session after it. -/
abbrev Called (σ : Type) := Except CallError Outcome × Session σ

/-- A step as a call. -/
def Called.ofStepped (stepped : Stepped σ) : Called σ :=
  (stepped.1.mapError CallError.step, stepped.2)

/-- A call that is refused for its values. -/
def refuse (s : Session σ) : Called σ := (.error .badArguments, s)

/-- A step that is made before a call is refused for its last value; it may fail itself. -/
def thenRefuse : Stepped σ → Called σ
  | (.ok _, s) => s.refuse
  | (.error err, s) => (.error (.step err), s)

/-- A call that concerns the element which a value names; without such an element nothing is
done. -/
def onElement (s : Session σ) (target : Json) (act : String → Called σ) : Called σ :=
  match target with
  | .str id => if s.scene.elements.contains id then act id else (.ok (.done false), s)
  | v => if v.isKey then (.ok (.done false), s) else s.refuse

/-! ## The mutations -/

/-- An element of a type is created. A value that is no name of a type is refused for its text,
which it may not have; the id is handed out before that. -/
def callCreate (s : Session σ) (type : Json) : Called σ :=
  match type.text with
  | .ok name => .ofStepped (s.mutate (.createElement name))
  | .error cause => (.error (.step (.number cause)), (s.mutate (.createElement "")).2)

/-- What a value has as items is selected. -/
def callSelect (s : Session σ) (ids : Json) : Called σ :=
  match ids.items? with
  | none => s.refuse
  | some items =>
    if items.all Json.isKey then
      .ofStepped (s.mutate (.setSelection (items.filterMap Json.string?)))
    else s.refuse

/-- An element is put at a place. -/
def callPlace (s : Session σ) (id : String) (x y : Json) : Called σ :=
  match x.number?, y.number? with
  | some x, some y => .ofStepped (s.mutate (.setPosition id x y))
  | _, _ => s.refuse

/-- An element is moved; without a number for the vertical part only horizontally. -/
def callMove (s : Session σ) (id : String) (dx dy : Json) : Called σ :=
  match dx.number?, dy.number? with
  | some dx, some dy => .ofStepped (s.mutate (.moveBy id dx dy))
  | some dx, none => thenRefuse (s.edit id (fun e => e.moveAcross dx))
  | none, _ => s.refuse

/-- An element gets a size; without a number for the height only a width. -/
def callResize (s : Session σ) (id : String) (w h : Json) : Called σ :=
  match w.number?, h.number? with
  | some w, some h => .ofStepped (s.mutate (.resize id w h))
  | some w, none => thenRefuse (s.edit id (fun e => e.setWidth s.config.minExtent w))
  | none, _ => s.refuse

/-- A prop of an element gets a value; only a text names a prop. -/
def callSetProperty (s : Session σ) (id : String) (key value : Json) : Called σ :=
  match key with
  | .str key => .ofStepped (s.mutate (.setProperty id key value))
  | _ => (.ok (.done false), s)

/-- An element gets a name. -/
def callRename (s : Session σ) (id : String) (name : Json) : Called σ :=
  match name with
  | .str name => .ofStepped (s.mutate (.rename id name))
  | _ => (.error .notText, s)

/-! ## Calls -/

/-- The session after a mutation is called with some values. -/
def call (s : Session σ) (op : Mutation.Operation) (arguments : List Json) : Called σ :=
  match op, arguments with
  | .createElement, [type] => s.callCreate type
  | .deleteElement, [target] =>
    s.onElement target (fun id => .ofStepped (s.mutate (.deleteElement id)))
  | .deleteSelected, [] => .ofStepped (s.mutate .deleteSelected)
  | .setSelection, [ids] => s.callSelect ids
  | .setPosition, [target, x, y] => s.onElement target (fun id => s.callPlace id x y)
  | .moveBy, [target, dx, dy] => s.onElement target (fun id => s.callMove id dx dy)
  | .resize, [target, w, h] => s.onElement target (fun id => s.callResize id w h)
  | .setProperty, [target, key, value] =>
    s.onElement target (fun id => s.callSetProperty id key value)
  | .rename, [target, name] => s.onElement target (fun id => s.callRename id name)
  | _, _ => s.refuse

/-- The session after the mutation of a name is called with some values. -/
def callNamed (s : Session σ) (name : String) (arguments : List Json) : Called σ :=
  match Mutation.Operation.ofName? name with
  | some op => s.call op arguments
  | none => (.error (.unknownOperation name), s)

/-- The session after a call, with its script patched if the call succeeds. -/
def applyNamed (s : Session σ) (name : String) (arguments : List Json) : Called σ :=
  match s.callNamed name arguments with
  | (.ok outcome, s) =>
    match s.regenerate with
    | (.ok _, s) => (.ok outcome, s)
    | (.error err, s) => (.error (.step err), s)
  | failed => failed

end Session

end SceneScript
