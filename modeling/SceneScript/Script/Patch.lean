import SceneScript.Script.Segment

/-!
# Patching a script

`Scene.patch` brings a script up to date with a scene and leaves everything else as it is. The
first block of every element of the scene is written anew at its place and its indent, all other
blocks are dropped, blocks for the remaining elements are put in together, and stubs are added for
handlers that the script does not declare. A script without any block is replaced by the whole
script of the scene.

A script with a carriage return before some line break is written with one before each.

`append_of_insertionPoint?` says that nothing is lost where new blocks are put in.
-/

namespace SceneScript

/-! ## Line breaks -/

/-- How the lines of a script are broken. -/
inductive LineBreak where
  | lf
  | crlf
  deriving DecidableEq, Repr

namespace LineBreak

/-- The characters of a line break. -/
def text : LineBreak → List Char
  | .lf => ['\n']
  | .crlf => ['\r', '\n']

/-- Whether a carriage return stands before some line feed. -/
def hasCrlf : List Char → Bool
  | [] => false
  | c :: s => (c = '\r' && s.head? = some '\n') || hasCrlf s

/-- The line break of a script. -/
def ofText (s : List Char) : LineBreak := if hasCrlf s then .crlf else .lf

/-- A line without the carriage return at its end. -/
def dropReturn (l : Line) : Line := if l.getLast? = some '\r' then l.dropLast else l

/-- The lines of a script with this line break. -/
def lines (b : LineBreak) (s : List Char) : List Line :=
  match b with
  | .lf => Text.lines s
  | .crlf => (Text.lines s).map dropReturn

end LineBreak

/-! ## Where new blocks go -/

/-- Whether a line starts the declaration of the drawing function. -/
def declaresDraw (l : Line) : Bool :=
  let rest? : Option (List Char) := do
    let rest ← Text.afterWord? "function".toList (Text.trimLeft l)
    let rest ← Text.afterBlanks? rest
    let rest ← Text.afterWord? "draw".toList rest
    let rest ← Text.afterChar? '(' (Text.trimLeft rest)
    Text.afterChar? ')' (Text.trimLeft rest)
  rest?.isSome

/-- Whether a line does not end a declaration at an indent. -/
def isWithin (indent : List Char) (l : Line) : Bool :=
  !(Text.trim l = "end".toList && Text.indentOf l = indent)

/-- Whether some statement of a line closes a block. -/
def closesOnLine (l : Line) : Bool := (Lua.statements l).any closesBlock

/-- A list cut at the last item that passes a test: what is before it, the item, what is after
it. -/
def splitAtLast? {α : Type} (p : α → Bool) : List α → Option (List α × α × List α)
  | [] => none
  | a :: l =>
    match splitAtLast? p l with
    | some (before, b, after) => some (a :: before, b, after)
    | none => if p a then some ([], a, l) else none

theorem append_of_splitAtLast? {α : Type} {p : α → Bool} {l before after : List α} {a : α}
    (h : splitAtLast? p l = some (before, a, after)) : before ++ a :: after = l := by
  induction l generalizing before with
  | nil => simp [splitAtLast?] at h
  | cons b l ih =>
    rw [splitAtLast?] at h
    split at h
    · next hs =>
      simp only [Option.some.injEq, Prod.mk.injEq] at h
      obtain ⟨rfl, rfl, rfl⟩ := h
      rw [List.cons_append, ih hs]
    · split at h
      · simp only [Option.some.injEq, Prod.mk.injEq] at h
        obtain ⟨rfl, rfl, rfl⟩ := h
        rfl
      · simp at h

/-- A script cut where new blocks go, with the indent that they get. -/
structure InsertionPoint where
  /-- The lines before the new blocks. -/
  before : List Line
  /-- The lines after the new blocks. -/
  after : List Line
  /-- The indent of the new blocks. -/
  indent : List Char

/-- The place before the last line that closes a block in the drawing function. -/
def insertionPoint? (ls : List Line) : Option InsertionPoint :=
  match ls.dropWhile (fun l => !declaresDraw l) with
  | [] => none
  | decl :: rest =>
    match splitAtLast? closesOnLine (rest.takeWhile (isWithin (Text.indentOf decl))) with
    | none => none
    | some (front, closing, back) =>
      some
        { before := ls.takeWhile (fun l => !declaresDraw l) ++ decl :: front
          after := closing :: back ++ rest.dropWhile (isWithin (Text.indentOf decl))
          indent := Text.indentOf closing ++ indentStep }

/-- Cutting a script where new blocks go loses nothing. -/
theorem append_of_insertionPoint? {ls : List Line} {p : InsertionPoint}
    (h : insertionPoint? ls = some p) : p.before ++ p.after = ls := by
  unfold insertionPoint? at h
  split at h
  · simp at h
  · next decl rest hd =>
    split at h
    · simp at h
    · next front closing back hs =>
      obtain rfl := Option.some.inj h
      have hbody := append_of_splitAtLast? hs
      simp only [List.append_assoc, List.cons_append]
      have hrest : front ++ closing :: (back ++ rest.dropWhile (isWithin (Text.indentOf decl)))
          = rest := by
        rw [← List.cons_append, ← List.append_assoc, hbody, List.takeWhile_append_dropWhile]
      rw [hrest, ← hd, List.takeWhile_append_dropWhile]

/-- Lines with others added at the end, but before an empty last line. -/
def appendLines (ls added : List Line) : List Line :=
  if ls.getLast? = some [] then ls.dropLast ++ added ++ [[]] else ls ++ added

/-- Lines with the blocks of some elements added: in the drawing function if it has a place for
them, else at the end. -/
def addBlocks (ls : List Line) (elements : List Element) : Except NumberError (List Line) :=
  if elements.isEmpty then .ok ls
  else
    match insertionPoint? ls with
    | none => (blocksOf [] elements).map (appendLines ls)
    | some p => (blocksOf p.indent elements).map (fun blocks => p.before ++ blocks ++ p.after)

/-! ## Declared functions -/

/-- Whether a text starts the declaration of a function of a name, or the assignment of a function
to it. -/
def startsDeclaration (name s : List Char) : Bool :=
  let declared? : Option (List Char) := do
    let rest ← Text.afterWord? "function".toList s
    let rest ← Text.afterBlanks? rest
    let rest ← Text.afterWord? name rest
    Text.afterChar? '(' (Text.trimLeft rest)
  let assigned? : Option (List Char) := do
    let rest ← Text.afterWord? name s
    let rest ← Text.afterChar? '=' (Text.trimLeft rest)
    let rest ← Text.afterWord? "function".toList (Text.trimLeft rest)
    if Text.atWordEnd rest then some rest else none
  declared?.isSome || assigned?.isSome

/-- Whether a line declares a function of a name, local or not. -/
def declaresFunction (name : List Char) (l : Line) : Bool :=
  let s := Text.trimLeft l
  startsDeclaration name s || ((Lua.afterLocal? s).map (startsDeclaration name)).getD false

/-- The stubs of the handlers that no line declares. -/
def missingStubs (ls : List Line) (handlers : List (List Char)) : List Line :=
  (handlers.filter (fun name => !ls.any (declaresFunction name))).map handlerStub

/-! ## Patching -/

namespace Scene

/-- The segments of a script with the blocks written anew, given the ids already placed: the
lines, and the ids placed at the end. -/
def replaceBlocks (s : Scene) : List String → List Segment →
    Except NumberError (List Line × List String)
  | placed, [] => .ok ([], placed)
  | placed, .line l :: rest => do
    let (ls, placed) ← s.replaceBlocks placed rest
    return (l :: ls, placed)
  | placed, .block id marker _ :: rest =>
    match s.elements.get? id, placed.contains id with
    | some e, false => do
      let block ← e.block (Text.indentOf marker)
      let (ls, placed) ← s.replaceBlocks (id :: placed) rest
      return (block ++ ls, placed)
    | _, _ => s.replaceBlocks placed rest

/-- The lines of a script with at least one block, brought up to date. -/
def patchSegments (s : Scene) (parts : List Segment) : Except NumberError (List Line) := do
  let (ls, placed) ← s.replaceBlocks [] parts
  let ls ← addBlocks ls (s.orderedElements.filter (fun e => !placed.contains e.id))
  let stubs := missingStubs ls s.handlers
  return if stubs.isEmpty then ls else appendLines ls stubs

end Scene

/-- Whether a segment is a block. -/
def Segment.isBlock : Segment → Bool
  | .line _ => false
  | .block _ _ _ => true

/-- A script brought up to date with a scene. -/
def Scene.patch (s : Scene) (text : List Char) : Except NumberError (List Char) := do
  let lineBreak := LineBreak.ofText text
  let parts ← segments (lineBreak.lines text)
  if parts.any Segment.isBlock then
    let ls ← s.patchSegments parts
    return Text.join lineBreak.text ls
  else
    let script ← s.script
    return Text.replaceChar '\n' lineBreak.text script

end SceneScript
