import SceneScript.Yaml.Token

/-!
# Nodes

The tokens of a text as the tree that they make: scalars, lists and mappings. Where a node may be
left out there is an empty plain scalar. A text holds one document at most.
-/

namespace SceneScript.Yaml

/-- A node of a document. -/
inductive Node where
  /-- A scalar. -/
  | scalar (mark : Mark) (isPlain : Bool) (text : List Char)
  /-- A list. -/
  | list (mark : Mark) (items : List Node)
  /-- A mapping. -/
  | mapping (mark : Mark) (members : List (Node × Node))

instance : Inhabited Node := ⟨.list .first []⟩

namespace Node

/-- Where a node starts. -/
def mark : Node → Mark
  | scalar mark _ _ | list mark _ | mapping mark _ => mark

/-- The word for the kind of a node. -/
def word : Node → String
  | scalar .. => "scalar"
  | list .. => "sequence"
  | mapping .. => "mapping"

/-- A node that is left out. -/
def absent (mark : Mark) : Node := scalar mark true []

end Node

/-! ## Reading nodes -/

namespace Tokens

/-- The first token and those after it; beyond the last one there is the fault at which they break
off. -/
def next (ending : Fault) : List Token → Except Fault (Token × List Token)
  | [] => .error ending
  | t :: ts => .ok (t, ts)

/-- A fault about a token inside something that started at a place. -/
def unexpected {α : Type} (in_ : Structure) (start : Mark) (t : Token) : Except Fault α :=
  .error (.unexpected in_ t.kind.word start t.mark)

/-- What may be read as a node. -/
structure Place where
  /-- Whether blocks may start. -/
  allowsBlock : Bool
  /-- Whether list items may start without a block of their own. -/
  allowsItems : Bool

/-- A value in a block mapping. -/
def Place.inMapping : Place := ⟨true, true⟩

/-- An item of a block list, or a whole document. -/
def Place.inBlock : Place := ⟨true, false⟩

/-- A part of a flow collection. -/
def Place.inFlow : Place := ⟨false, false⟩

mutual

/-- The node at the front of some tokens, and those after it. -/
def node (ending : Fault) (place : Place) :
    Nat → List Token → Except Fault (Node × List Token)
  | 0, _ => .error ending
  | fuel + 1, ts => do
    let (t, rest) ← next ending ts
    match t.kind with
    | .scalar isPlain text => return (.scalar t.mark isPlain text, rest)
    | .flowListStart => do
      let (items, rest) ← flowItems ending t.mark true fuel rest
      return (.list t.mark items, rest)
    | .flowMappingStart => do
      let (members, rest) ← flowMembers ending t.mark true fuel rest
      return (.mapping t.mark members, rest)
    | .blockListStart =>
      if place.allowsBlock then do
        let (items, rest) ← blockItems ending (some t.mark) fuel rest
        return (.list t.mark items, rest)
      else unexpected .flowNode t.mark t
    | .blockMappingStart =>
      if place.allowsBlock then do
        let (members, rest) ← blockMembers ending t.mark fuel rest
        return (.mapping t.mark members, rest)
      else unexpected .flowNode t.mark t
    | .item =>
      if place.allowsItems then do
        let (items, rest) ← blockItems ending none fuel ts
        return (.list t.mark items, rest)
      else unexpected (if place.allowsBlock then .blockNode else .flowNode) t.mark t
    | _ => unexpected (if place.allowsBlock then .blockNode else .flowNode) t.mark t

/-- The node at the front of some tokens, absent where one of some kinds stands instead; `start` is
the place of the sign in front of it. -/
def nodeUnless (ending : Fault) (place : Place) (stops : TokenKind → Bool) (start : Mark) :
    Nat → List Token → Except Fault (Node × List Token)
  | 0, _ => .error ending
  | fuel + 1, ts => do
    let (t, _) ← next ending ts
    if stops t.kind then return (.absent start.next, ts) else node ending place fuel ts

/-- The value at the front of some tokens, if a colon announces one. -/
def valueUnless (ending : Fault) (place : Place) (stops : TokenKind → Bool) :
    Nat → List Token → Except Fault (Node × List Token)
  | 0, _ => .error ending
  | fuel + 1, ts => do
    let (t, rest) ← next ending ts
    if t.kind = .value then nodeUnless ending place stops t.mark fuel rest
    else return (.absent t.mark, ts)

/-- The members of a block mapping, and what follows its end. -/
def blockMembers (ending : Fault) (start : Mark) :
    Nat → List Token → Except Fault (List (Node × Node) × List Token)
  | 0, _ => .error ending
  | fuel + 1, ts => do
    let (t, rest) ← next ending ts
    match t.kind with
    | .key => do
      let stops (kind : TokenKind) : Bool := kind = .key || kind = .value || kind = .blockEnd
      let (key, rest) ← nodeUnless ending .inMapping stops t.mark fuel rest
      let (value, rest) ← valueUnless ending .inMapping stops fuel rest
      let (members, rest) ← blockMembers ending start fuel rest
      return ((key, value) :: members, rest)
    | .blockEnd => return ([], rest)
    | _ => unexpected .blockMapping start t

/-- The items of a block list, and what follows them. A list with a block of its own, which starts
at a place, goes on to the end of that. -/
def blockItems (ending : Fault) (start? : Option Mark) :
    Nat → List Token → Except Fault (List Node × List Token)
  | 0, _ => .error ending
  | fuel + 1, ts => do
    let (t, rest) ← next ending ts
    match t.kind, start? with
    | .item, _ => do
      let stops (kind : TokenKind) : Bool :=
        kind = .item || kind = .blockEnd || (start?.isNone && (kind = .key || kind = .value))
      let (item, rest) ← nodeUnless ending .inBlock stops t.mark fuel rest
      let (items, rest) ← blockItems ending start? fuel rest
      return (item :: items, rest)
    | _, none => return ([], ts)
    | .blockEnd, some _ => return ([], rest)
    | _, some start => unexpected .blockList start t

/-- The items of a flow list, and what follows its end. A key makes a mapping of one member. -/
def flowItems (ending : Fault) (start : Mark) (isFirst : Bool) :
    Nat → List Token → Except Fault (List Node × List Token)
  | 0, _ => .error ending
  | fuel + 1, ts => do
    let (t, rest) ← next ending ts
    if t.kind = .flowListEnd then return ([], rest)
    if !isFirst && t.kind ≠ .flowEntry then unexpected .flowList start t
    let ts := if isFirst then ts else rest
    let (t, rest) ← next ending ts
    match t.kind with
    | .flowListEnd => return ([], rest)
    | .key => do
      let endsValue (kind : TokenKind) : Bool := kind = .flowEntry || kind = .flowListEnd
      let (key, rest) ←
        nodeUnless ending .inFlow (fun kind => kind = .value || endsValue kind) t.mark fuel rest
      let (value, rest) ← valueUnless ending .inFlow endsValue fuel rest
      let (items, rest) ← flowItems ending start false fuel rest
      return (.mapping t.mark [(key, value)] :: items, rest)
    | _ => do
      let (item, rest) ← node ending .inFlow fuel ts
      let (items, rest) ← flowItems ending start false fuel rest
      return (item :: items, rest)

/-- The members of a flow mapping, and what follows its end. A node alone has no value. -/
def flowMembers (ending : Fault) (start : Mark) (isFirst : Bool) :
    Nat → List Token → Except Fault (List (Node × Node) × List Token)
  | 0, _ => .error ending
  | fuel + 1, ts => do
    let (t, rest) ← next ending ts
    if t.kind = .flowMappingEnd then return ([], rest)
    if !isFirst && t.kind ≠ .flowEntry then unexpected .flowMapping start t
    let ts := if isFirst then ts else rest
    let (t, rest) ← next ending ts
    match t.kind with
    | .flowMappingEnd => return ([], rest)
    | .key => do
      let endsValue (kind : TokenKind) : Bool := kind = .flowEntry || kind = .flowMappingEnd
      let (key, rest) ←
        nodeUnless ending .inFlow (fun kind => kind = .value || endsValue kind) t.mark fuel rest
      let (value, rest) ← valueUnless ending .inFlow endsValue fuel rest
      let (members, rest) ← flowMembers ending start false fuel rest
      return ((key, value) :: members, rest)
    | _ => do
      let (key, rest) ← node ending .inFlow fuel ts
      let (members, rest) ← flowMembers ending start false fuel rest
      return ((key, .absent key.mark) :: members, rest)

end

/-! ## Documents -/

/-- The tokens after those that end documents. -/
def dropDocumentEnds (ts : List Token) : List Token := ts.dropWhile (fun t => t.kind = .documentEnd)

/-- The document at the front of some tokens, and those after it. -/
def document (ending : Fault) (fuel : Nat) (ts : List Token) :
    Except Fault (Node × List Token) := do
  let (t, rest) ← next ending ts
  if t.kind = .documentStart then
    let (t, _) ← next ending rest
    if t.kind = .documentStart || t.kind = .documentEnd || t.kind = .textEnd then
      return (.absent t.mark, rest)
    else node ending .inBlock fuel rest
  else node ending .inBlock fuel ts

/-- Nothing but the end of the text follows a document. -/
def noSecondDocument (ending : Fault) (first : Node) (ts : List Token) : Except Fault Unit := do
  let (t, _) ← next ending (dropDocumentEnds ts)
  match t.kind with
  | .textEnd => return ()
  | .documentStart => .error (.secondDocument first.mark t.mark)
  | kind => .error (.noDocument kind.word t.mark)

/-- The only document of some tokens, if there is one. -/
def document? (ts : Tokens) : Except Fault (Option Node) := do
  let ending := ts.fault?.getD (.unsupported .first)
  let (t, _) ← next ending ts.list
  if t.kind = .textEnd then return none
  let (node, rest) ← document ending (4 * ts.list.length + 4) ts.list
  noSecondDocument ending node rest
  return some node

end Tokens

end SceneScript.Yaml
