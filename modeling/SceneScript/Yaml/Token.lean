import SceneScript.Yaml.ScalarText

/-!
# Tokens

A text in YAML as tokens: scalars, the signs of flow collections, keys and values, list items, and
the beginnings and ends of blocks, which come from the indentation. A scalar or a collection turns
out to be a key only at the colon after it, on the same line; the scanner remembers what may still
be one, level by level, and puts the key's token in front of it then.

Anchors, tags, directives and block scalars are refused.
-/

namespace SceneScript.Yaml

/-! ## Tokens -/

/-- The kind of a token. -/
inductive TokenKind where
  | documentStart
  | documentEnd
  | textEnd
  | blockListStart
  | blockMappingStart
  | blockEnd
  | flowListStart
  | flowListEnd
  | flowMappingStart
  | flowMappingEnd
  | flowEntry
  | item
  | key
  | value
  | scalar (isPlain : Bool) (text : List Char)
  deriving DecidableEq, Repr

/-- A token, with the place where it starts. -/
structure Token where
  /-- Its kind. -/
  kind : TokenKind
  /-- Where it starts. -/
  mark : Mark
  deriving DecidableEq, Repr

/-- The word for a kind of tokens. -/
def TokenKind.word : TokenKind → String
  | .documentStart => "<document start>"
  | .documentEnd => "<document end>"
  | .textEnd => "<stream end>"
  | .blockListStart => "<block sequence start>"
  | .blockMappingStart => "<block mapping start>"
  | .blockEnd => "<block end>"
  | .flowListStart => "["
  | .flowListEnd => "]"
  | .flowMappingStart => "\x7b"
  | .flowMappingEnd => "\x7d"
  | .flowEntry => ","
  | .item => "-"
  | .key => "?"
  | .value => ":"
  | .scalar _ _ => "<scalar>"

/-! ## The scanner -/

/-- What may turn out to be a key. -/
structure KeyCandidate where
  /-- How many tokens come before it. -/
  position : Nat
  /-- Whether nothing else can stand there. -/
  required : Bool
  /-- Where it starts. -/
  mark : Mark

/-- How many characters a key may have that is not announced. -/
def keyLimit : Nat := 1024

/-- Whether a candidate can no longer be a key: on another line, or too long. -/
def KeyCandidate.isStale (k : KeyCandidate) (mark : Mark) : Bool :=
  k.mark.line ≠ mark.line || k.mark.offset + keyLimit < mark.offset

/-- The state of the scanner. -/
structure Scanner where
  /-- What is still to be read. -/
  rest : List Cell
  /-- The tokens so far. -/
  tokens : Array Token
  /-- The columns of the open blocks, the innermost first. -/
  columns : List Nat
  /-- For every open flow collection, and for the block around them, what may still be a key; the
  innermost first. -/
  candidates : List (Option KeyCandidate)
  /-- Whether a key may start here. -/
  allowsKey : Bool

namespace Scanner

variable (last : Mark)

/-- Where the scanner stands. -/
def mark (s : Scanner) : Mark := markOf last s.rest

/-- Whether the scanner is inside a flow collection. -/
def inFlow (s : Scanner) : Bool := 1 < s.candidates.length

/-- The first column inside the innermost block. -/
def indent (s : Scanner) : Nat :=
  match s.columns with
  | [] => 0
  | column :: _ => column + 1

/-- The scanner with a further token. -/
def push (s : Scanner) (kind : TokenKind) (mark : Mark) : Scanner :=
  { s with tokens := s.tokens.push ⟨kind, mark⟩ }

/-- The scanner some cells on. -/
def skip (s : Scanner) (n : Nat) : Scanner := { s with rest := s.rest.drop n }

/-! ### Blocks -/

/-- The scanner with the blocks closed that are indented further than a column. -/
def closeBlocks (s : Scanner) (column : Nat) (mark : Mark) : Scanner :=
  let closed := s.columns.takeWhile (fun c => column < c)
  { s with
    columns := s.columns.dropWhile (fun c => column < c)
    tokens := s.tokens ++ closed.toArray.map (fun _ => ⟨.blockEnd, mark⟩) }

/-- The scanner with all blocks closed, unless it is inside a flow collection. -/
def closeAll (s : Scanner) (mark : Mark) : Scanner :=
  if s.inFlow then s
  else
    { s with
      columns := []
      tokens := s.tokens ++ s.columns.toArray.map (fun _ => ⟨.blockEnd, mark⟩) }

/-- Whether a block starts at a column, that is, further in than the innermost one. -/
def startsBlock (s : Scanner) (column : Nat) : Bool := !s.inFlow && s.indent ≤ column

/-- The scanner with a block opened at a column, if one starts there. -/
def openBlock (s : Scanner) (kind : TokenKind) (mark : Mark) : Scanner :=
  if s.startsBlock mark.column then
    { s.push kind mark with columns := mark.column :: s.columns }
  else s

/-! ### Keys -/

/-- The candidates that can still be keys. -/
def keepFresh (mark : Mark) :
    List (Option KeyCandidate) → Except Fault (List (Option KeyCandidate))
  | [] => .ok []
  | none :: outer => (keepFresh mark outer).map (none :: ·)
  | some k :: outer => do
    let kept ← keepFresh mark outer
    if k.isStale mark then
      if k.required then .error (.keyAlone k.mark mark) else return none :: kept
    else return some k :: kept

/-- The scanner without the candidates that can no longer be keys. -/
def dropStale (s : Scanner) : Except Fault Scanner := do
  let candidates ← keepFresh (s.mark last) s.candidates
  return { s with candidates := candidates }

/-- The scanner with another candidate at its level. -/
def setCandidate (s : Scanner) (k? : Option KeyCandidate) : Scanner :=
  { s with candidates := k? :: s.candidates.tail }

/-- The scanner without the candidate at its level, which must not be required. -/
def dropCandidate (s : Scanner) : Except Fault Scanner :=
  match s.candidates with
  | some k :: _ =>
    if k.required then .error (.keyAlone k.mark (s.mark last)) else .ok (s.setCandidate none)
  | _ => .ok s

/-- The scanner with what starts here as a candidate, if a key may start here. -/
def saveCandidate (s : Scanner) : Except Fault Scanner := do
  if s.allowsKey then
    let mark := s.mark last
    let required := !s.inFlow && s.columns.head? = some mark.column
    let s ← s.dropCandidate last
    return s.setCandidate (some ⟨s.tokens.size, required, mark⟩)
  else return s

/-! ### Between tokens -/

/-- What follows gaps and comments, and whether a line ended in them. -/
def skipGap (inComment broke : Bool) : List Cell → List Cell × Bool
  | [] => ([], broke)
  | c :: rest =>
    if isBreak c.char then skipGap false true rest
    else if inComment then skipGap true broke rest
    else if c.char = ' ' then skipGap false broke rest
    else if c.char = '#' then skipGap true broke rest
    else (c :: rest, broke)

/-- The scanner at the next token. -/
def toToken (s : Scanner) : Scanner :=
  let rest :=
    match s.rest with
    | c :: rest => if c.char = '\uFEFF' && c.mark = .first then rest else c :: rest
    | [] => []
  let (rest, broke) := skipGap false false rest
  { s with rest := rest, allowsKey := s.allowsKey || (broke && !s.inFlow) }

/-! ### One token -/

/-- The end of the text. -/
def readEnd (s : Scanner) : Except Fault Scanner := do
  let mark := s.mark last
  let s ← (s.closeAll mark).dropCandidate last
  return s.push .textEnd mark

/-- The beginning or the end of a document. -/
def readSeparator (s : Scanner) (kind : TokenKind) : Except Fault Scanner := do
  let mark := s.mark last
  let s ← (s.closeAll mark).dropCandidate last
  return { (s.push kind mark).skip 3 with allowsKey := false }

/-- The beginning of a flow collection. -/
def readFlowStart (s : Scanner) (kind : TokenKind) : Except Fault Scanner := do
  let mark := s.mark last
  let s ← s.saveCandidate last
  return { (s.push kind mark).skip 1 with candidates := none :: s.candidates, allowsKey := true }

/-- The end of a flow collection. -/
def readFlowEnd (s : Scanner) (kind : TokenKind) : Except Fault Scanner := do
  let mark := s.mark last
  let s ← s.dropCandidate last
  return { (s.push kind mark).skip 1 with candidates := s.candidates.tail, allowsKey := false }

/-- A comma in a flow collection. -/
def readFlowEntry (s : Scanner) : Except Fault Scanner := do
  let mark := s.mark last
  let s ← s.dropCandidate last
  return { (s.push .flowEntry mark).skip 1 with allowsKey := true }

/-- The dash of a list item. -/
def readItem (s : Scanner) : Except Fault Scanner := do
  let mark := s.mark last
  if !s.inFlow && !s.allowsKey then .error (.itemHere mark)
  let s ← (s.openBlock .blockListStart mark).dropCandidate last
  return { (s.push .item mark).skip 1 with allowsKey := true }

/-- The question mark of an announced key. -/
def readKey (s : Scanner) : Except Fault Scanner := do
  let mark := s.mark last
  if !s.inFlow && !s.allowsKey then .error (.keyHere mark)
  let s ← (s.openBlock .blockMappingStart mark).dropCandidate last
  return { (s.push .key mark).skip 1 with allowsKey := !s.inFlow }

/-- The scanner with what turned out to be a key announced. -/
def announceKey (s : Scanner) (k : KeyCandidate) : Scanner :=
  let tokens := s.tokens.insertIdxIfInBounds k.position ⟨.key, k.mark⟩
  let s := { s.setCandidate none with allowsKey := false }
  if s.startsBlock k.mark.column then
    { s with
      tokens := tokens.insertIdxIfInBounds k.position ⟨.blockMappingStart, k.mark⟩
      columns := k.mark.column :: s.columns }
  else { s with tokens := tokens }

/-- The colon in front of a value. -/
def readValue (s : Scanner) : Except Fault Scanner := do
  let mark := s.mark last
  match s.candidates with
  | some k :: _ => return ((s.announceKey k).push .value mark).skip 1
  | _ =>
    if !s.inFlow && !s.allowsKey then .error (.valueHere mark)
    let s := s.openBlock .blockMappingStart mark
    return { (s.push .value mark).skip 1 with allowsKey := !s.inFlow }

/-- A quoted scalar. -/
def readQuoted (s : Scanner) (quote : Quote) : Except Fault Scanner := do
  let mark := s.mark last
  let s ← s.saveCandidate last
  let (text, rest) ← takeQuoted quote last mark s.rest.tail
  return { s.push (.scalar false text) mark with rest := rest, allowsKey := false }

/-- A plain scalar. -/
def readPlain (s : Scanner) : Except Fault Scanner := do
  let mark := s.mark last
  let s ← s.saveCandidate last
  let read := takePlain last s.inFlow s.indent s.rest
  return { s.push (.scalar true read.text) mark with
    rest := read.rest, allowsKey := read.breaksLine }

/-- Whether a character has a meaning of its own at the front of a token. -/
def isSign (c : Char) : Bool :=
  "-?:,[]\x7b\x7d#&*!|>\x27\x22%@\x60".toList.contains c

/-- Whether a plain scalar starts with a cell. -/
def startsPlain (inFlow : Bool) (c : Char) (rest : List Cell) : Bool :=
  (!isSign c && !isGap c)
    || (!endsWord rest && (c = '-' || (!inFlow && (c = '?' || c = ':'))))

/-- The token that starts with a cell. -/
def readToken (s : Scanner) (c : Cell) (rest : List Cell) : Except Fault Scanner :=
  let block := !s.inFlow
  let atLine := c.mark.column = 0
  if atLine && c.char = '%' then .error (.unsupported c.mark)
  else if atLine && startsTriple '-' (c :: rest) then s.readSeparator last .documentStart
  else if atLine && startsTriple '.' (c :: rest) then s.readSeparator last .documentEnd
  else if c.char = '[' then s.readFlowStart last .flowListStart
  else if c.char = '\x7b' then s.readFlowStart last .flowMappingStart
  else if c.char = ']' then s.readFlowEnd last .flowListEnd
  else if c.char = '\x7d' then s.readFlowEnd last .flowMappingEnd
  else if c.char = ',' then s.readFlowEntry last
  else if c.char = '-' && endsWord rest then s.readItem last
  else if c.char = '?' && (!block || endsWord rest) then s.readKey last
  else if c.char = ':' && (!block || endsWord rest) then s.readValue last
  else if c.char = '*' || c.char = '&' || c.char = '!' then .error (.unsupported c.mark)
  else if block && (c.char = '|' || c.char = '>') then .error (.unsupported c.mark)
  else if c.char = '\x27' then s.readQuoted last .single
  else if c.char = '\x22' then s.readQuoted last .double
  else if startsPlain s.inFlow c.char rest then s.readPlain last
  else .error (.noToken c.char c.mark)

/-- The scanner one token on. -/
def step (s : Scanner) : Except Fault Scanner := do
  let s ← s.toToken.dropStale last
  let s := if s.inFlow then s else s.closeBlocks (s.mark last).column (s.mark last)
  match s.rest with
  | [] => s.readEnd last
  | c :: rest => s.readToken last c rest

end Scanner

/-! ## All tokens -/

/-- Tokens, and what is wrong where they break off. -/
structure Tokens where
  /-- The tokens. -/
  list : List Token
  /-- What is wrong after them, if they break off. -/
  fault? : Option Fault

/-- Whether the last of some tokens ends the text, or closes a collection that was never opened. -/
def Scanner.isDone (s : Scanner) : Bool :=
  s.candidates.isEmpty || s.tokens.back?.any (fun t => t.kind = .textEnd)

/-- The number of tokens that are clear before a fault: all, or those before the first one that may
still turn out to be a key. -/
def Scanner.clearTokens (s : Scanner) : Nat :=
  s.candidates.foldl (fun n k? => (k?.map (fun k => min n k.position)).getD n) s.tokens.size

/-- The tokens from a state of the scanner on; `fuel` bounds their number. -/
def tokensFrom (last : Mark) : Nat → Scanner → Tokens
  | 0, s => ⟨s.tokens.toList, none⟩
  | fuel + 1, s =>
    match s.dropStale last with
    | .error fault => ⟨s.tokens.toList.take s.clearTokens, some fault⟩
    | .ok s =>
      match s.step last with
      | .error fault => ⟨s.tokens.toList.take s.clearTokens, some fault⟩
      | .ok s => if s.isDone then ⟨s.tokens.toList, none⟩ else tokensFrom last fuel s

/-- The tokens of a text. -/
def tokensOf (s : List Char) : Tokens :=
  tokensFrom (markAfter .first s) (s.length + 1) ⟨cellsFrom .first s, #[], [], [none], true⟩

end SceneScript.Yaml
