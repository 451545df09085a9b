import SceneScript.Script.Block
import SceneScript.Script.Candidate

/-!
# Reading a script

One pass over the lines of a script gathers its candidates. The reader keeps a context for every
open block: the place reached by the moves so far, the marker that waits for the next block, the
marker that the block carries for its first statement, and the slider whose handler may follow.

Reading is lenient: what is not recognised is passed over, and so is every statement outside all
blocks. It fails only where a marker gives a size of too many digits, or a move adds a whole number
that is too large to a binary64 one.
-/

namespace SceneScript

/-! ## Bindings -/

/-- The numbers that the lines of a script bind to names, the last one of a name winning. -/
def bindingsOf (ls : List Line) : Lua.Bindings :=
  Table.ofList (((ls.flatMap Lua.statements).filterMap Lua.binding?).map
    (fun b => (String.ofList b.1, b.2)))

/-! ## Contexts -/

/-- What the reader knows inside a block. -/
structure Context where
  /-- The horizontal place reached. -/
  x : Num
  /-- The vertical place reached. -/
  y : Num
  /-- The marker that waits for the next block. -/
  pending? : Option Marker
  /-- The marker of this block, until a statement has taken it. -/
  carried? : Option Marker
  /-- The slider just read, whose handler may be called next. -/
  awaiting? : Option (Shape × Call)

namespace Context

/-- The context outside all blocks. -/
def start : Context := ⟨0, 0, none, none, none⟩

/-- The context of a block opened in this one. -/
def inner (c : Context) : Context := ⟨c.x, c.y, none, c.pending?, none⟩

/-- What remains of a context once a block is opened in it. -/
def outer (c : Context) : Context := { c with pending? := none, awaiting? := none }

/-- The context after a move. One whose arguments do not stand for numbers goes nowhere. -/
def move (c : Context) (bindings : Lua.Bindings) (arguments : List (List Char)) :
    Except NumberError Context :=
  let c := { c with awaiting? := none }
  match arguments with
  | first :: second :: _ =>
    match Lua.resolveNumber bindings first, Lua.resolveNumber bindings second with
    | some dx, some dy => do
      let x ← c.x.add dx
      let y ← c.y.add dy
      return { c with x := x, y := y }
    | _, _ => .ok c
  | _ => .ok c

end Context

/-! ## Statements -/

/-- Where the reader stands: in a context, inside others, with the candidates found so far, the
newest first. -/
structure ReaderState where
  /-- The context of the innermost open block. -/
  current : Context
  /-- The contexts around it, from the inside out. -/
  around : List Context
  /-- The candidates found, the newest first. -/
  found : List Candidate

namespace ReaderState

/-- The reader at the start of a script. -/
def start : ReaderState := ⟨Context.start, [], []⟩

/-- The reader after a marker. -/
def mark (r : ReaderState) (marker : Marker) : ReaderState :=
  { r with current := { r.current with pending? := some marker } }

/-- The reader inside a block that is opened. -/
def push (r : ReaderState) : ReaderState :=
  { r with current := r.current.inner, around := r.current.outer :: r.around }

/-- The reader after a block is closed; outside all blocks nothing happens. -/
def pop (r : ReaderState) : ReaderState :=
  match r.around with
  | [] => r
  | c :: cs => { r with current := c, around := cs }

/-- The reader after a statement that may make a candidate. -/
def recognize (r : ReaderState) (bindings : Lua.Bindings) (line : Nat) (statement : List Char) :
    ReaderState :=
  match matchStatement? statement with
  | none => r
  | some (shape, call) =>
    let c := r.current
    let candidate := Candidate.ofCall bindings shape call c.carried? c.x c.y line
    let awaiting? := if shape.form = .slider then some (shape, call) else c.awaiting?
    { r with
      current := { c with carried? := none, awaiting? := awaiting? }
      found := candidate :: r.found }

/-- The newest candidate gets a handler. -/
def giveHandler (r : ReaderState) (shape : Shape) (handler : List Char) : ReaderState :=
  match r.found with
  | [] => r
  | c :: cs => { r with found := c.withHandler shape (some handler) :: cs }

/-- The reader after a statement inside a block: the handler of the slider just read, or one that
may make a candidate. -/
def enter (r : ReaderState) (bindings : Lua.Bindings) (line : Nat) (statement : List Char) :
    ReaderState :=
  match r.current.awaiting? with
  | none => r.recognize bindings line statement
  | some (shape, call) =>
    let r := { r with current := { r.current with awaiting? := none } }
    match shape.followUpHandler? call statement with
    | some handler => r.giveHandler shape handler
    | none => r.recognize bindings line statement

/-- The reader after a statement. -/
def step (bindings : Lua.Bindings) (line : Nat) (r : ReaderState) (statement : List Char) :
    Except NumberError ReaderState :=
  if opensBlock statement then .ok r.push
  else if closesBlock statement then .ok r.pop
  else
    match moveArguments? statement with
    | some arguments => do
      let c ← r.current.move bindings arguments
      return { r with current := c }
    | none => .ok (if r.around.isEmpty then r else r.enter bindings line statement)

/-! ## Lines -/

/-- What a line means to the reader. -/
inductive LineContent where
  /-- A marker. -/
  | marker (m : Marker)
  /-- Statements, perhaps none. -/
  | statements (statements : List (List Char))

/-- What a line means: a comment is a marker, or the statement that it stands for, or nothing. -/
def LineContent.ofLine (l : Line) : Except NumberError LineContent :=
  let s := Text.trim l
  if (Text.afterWord? "--".toList s).isSome then do
    match ← Marker.read s with
    | some m => return .marker m
    | none => return .statements (if (matchStatement? s).isSome then [s] else [])
  else .ok (.statements (Lua.statements l))

/-- The reader after a line. -/
def readLine (bindings : Lua.Bindings) (r : ReaderState) (l : Line) (line : Nat) :
    Except NumberError ReaderState := do
  match ← LineContent.ofLine l with
  | .marker m => return r.mark m
  | .statements statements => statements.foldlM (step bindings line) r

/-- The reader after some lines, the first of them with a number. -/
def readLines (bindings : Lua.Bindings) : Nat → ReaderState → List Line →
    Except NumberError ReaderState
  | _, r, [] => .ok r
  | line, r, l :: ls => do
    let r ← readLine bindings r l line
    readLines bindings (line + 1) r ls

end ReaderState

/-- The candidates of a script, in order. -/
def candidatesOf (text : List Char) : Except NumberError (List Candidate) := do
  let ls := Text.lines text
  let r ← ReaderState.readLines (bindingsOf ls) 1 ReaderState.start ls
  return r.found.reverse

end SceneScript
