import SceneScript.Script.Marker
import SceneScript.Script.Statement

/-!
# Candidates

A candidate is an element as a script describes it: the type and the props of a recognised
statement, the place at which it is drawn, and, when its block has a marker, the id and the name
that the marker gives. Sizes come from the marker, else from the statement, else from the type.
-/

namespace SceneScript

/-- An element as a script describes it. -/
structure Candidate where
  /-- The name of its type. -/
  type : String
  /-- The horizontal place. -/
  x : Num
  /-- The vertical place. -/
  y : Num
  /-- The width. -/
  w : Num
  /-- The height. -/
  h : Num
  /-- The props that the script gives. -/
  props : Table Json
  /-- The id on the marker. -/
  id? : Option String
  /-- The name on the marker. -/
  name? : Option String
  /-- The line of the statement, counted from one; a candidate that no script has may say any. -/
  line : Int

namespace Candidate

/-- Whether a handler is the one made from the name on the marker. -/
def derives (c : Candidate) (key : HandlerKey) (handler : List Char) : Bool :=
  match c.name? with
  | some name => key.derivedName name.toList = handler
  | none => false

/-- The candidate with a handler. One that is made from the name is not stored. -/
def withHandler (c : Candidate) (shape : Shape) (handler? : Option (List Char)) : Candidate :=
  match shape.handler?, handler? with
  | some key, some handler =>
    if c.derives key handler then c
    else { c with props := c.props.insert key.key (.str (String.ofList handler)) }
  | _, _ => c

/-- A size of a marker as a number. -/
def markerSize (marker? : Option Marker) (size? : Marker → Option Int) : Option Num :=
  (marker?.bind size?).map Num.int

/-- The candidate that a recognised statement makes at a place, with the marker of its block. -/
def ofCall (bindings : Lua.Bindings) (shape : Shape) (call : Call) (marker? : Option Marker)
    (x y : Num) (line : Nat) : Candidate :=
  let fields := shape.extract bindings call
  let (w, h) := shape.type.defaultSize
  let candidate : Candidate :=
    { type := shape.type.name
      x := x
      y := y
      w := ((markerSize marker? Marker.w?).or fields.w?).getD w
      h := ((markerSize marker? Marker.h?).or fields.h?).getD h
      props := fields.props
      id? := marker?.bind Marker.id?
      name? := marker?.bind Marker.name?
      line := line }
  candidate.withHandler shape fields.handler?

end Candidate

end SceneScript
