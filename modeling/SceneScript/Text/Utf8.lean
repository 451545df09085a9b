import SceneScript.Number.Decimal
import SceneScript.Text.Character

/-!
# UTF-8

Characters as bytes and bytes as characters. Decoding runs a machine over the bytes, one at a
time, that stands either between characters or inside one; it cuts ill-formed bytes into maximal
subparts, each a piece of its own.

* `encodeChar` writes a character, `pieces` reads bytes into characters and ill-formed pieces.
* `decodeLossy` puts the replacement character for each ill-formed piece.
* `decode` refuses, with the position and the reason of the first ill-formed piece; `decodeBlocks`
  does so for bytes that are read in blocks.
-/

namespace SceneScript.Text.Utf8

/-! ## Encoding -/

/-- The bytes of a character. -/
def encodeChar (c : Char) : List UInt8 :=
  let n := c.toNat
  if n < 0x80 then [UInt8.ofNat n]
  else if n < 0x800 then [UInt8.ofNat (0xC0 + n / 64), UInt8.ofNat (0x80 + n % 64)]
  else if n < 0x10000 then
    [UInt8.ofNat (0xE0 + n / 4096), UInt8.ofNat (0x80 + n / 64 % 64), UInt8.ofNat (0x80 + n % 64)]
  else
    [UInt8.ofNat (0xF0 + n / 262144), UInt8.ofNat (0x80 + n / 4096 % 64),
      UInt8.ofNat (0x80 + n / 64 % 64), UInt8.ofNat (0x80 + n % 64)]

/-- The bytes of a text. -/
def encode (s : List Char) : List UInt8 := s.flatMap encodeChar

/-! ## Decoding -/

/-- Why bytes are ill-formed. -/
inductive Fault where
  /-- No character starts with this byte. -/
  | invalidStart
  /-- A character is broken off by a byte that does not continue it. -/
  | invalidContinuation
  /-- A character is broken off by the end. -/
  | unexpectedEnd
  deriving DecidableEq, Repr

/-- The words for a fault. -/
def Fault.message : Fault → String
  | .invalidStart => "invalid start byte"
  | .invalidContinuation => "invalid continuation byte"
  | .unexpectedEnd => "unexpected end of data"

/-- A character, or a maximal ill-formed run of bytes. -/
inductive Piece where
  /-- A character and the bytes it took. -/
  | char (c : Char) (bytes : List UInt8)
  /-- Bytes that are no character. -/
  | bad (fault : Fault) (bytes : List UInt8)
  deriving DecidableEq, Repr

/-- The bytes that a piece was read from. -/
def Piece.bytes : Piece → List UInt8
  | .char _ bytes => bytes
  | .bad _ bytes => bytes

/-- Where the machine stands: between characters, or inside one that needs `more + 1` bytes, the
next of them between `low` and `high`. -/
inductive State where
  | start
  | inside (more value low high : Nat) (read : List UInt8)

/-- The machine after the first byte of a character. -/
def first (b : UInt8) : List Piece × State :=
  let n := b.toNat
  if n < 0x80 then ([.char (Char.ofNat n) [b]], .start)
  else if n < 0xC2 then ([.bad .invalidStart [b]], .start)
  else if n < 0xE0 then ([], .inside 0 (n - 0xC0) 0x80 0xBF [b])
  else if n = 0xE0 then ([], .inside 1 0 0xA0 0xBF [b])
  else if n = 0xED then ([], .inside 1 0xD 0x80 0x9F [b])
  else if n < 0xF0 then ([], .inside 1 (n - 0xE0) 0x80 0xBF [b])
  else if n = 0xF0 then ([], .inside 2 0 0x90 0xBF [b])
  else if n < 0xF4 then ([], .inside 2 (n - 0xF0) 0x80 0xBF [b])
  else if n = 0xF4 then ([], .inside 2 4 0x80 0x8F [b])
  else ([.bad .invalidStart [b]], .start)

/-- One byte: the pieces it completes, and the machine after it. -/
def step : State → UInt8 → List Piece × State
  | .start, b => first b
  | .inside more value low high read, b =>
    if low ≤ b.toNat ∧ b.toNat ≤ high then
      let value := value * 64 + (b.toNat - 0x80)
      match more with
      | 0 => ([.char (Char.ofNat value) (read ++ [b])], .start)
      | more + 1 => ([], .inside more value 0x80 0xBF (read ++ [b]))
    else
      let (pieces, state) := first b
      (.bad .invalidContinuation read :: pieces, state)

/-- The pieces of the bytes, from a state. -/
def run : State → List UInt8 → List Piece
  | .start, [] => []
  | .inside _ _ _ _ read, [] => [.bad .unexpectedEnd read]
  | state, b :: bytes =>
    let (pieces, state) := step state b
    pieces ++ run state bytes

/-- The pieces of the bytes. -/
def pieces (bytes : List UInt8) : List Piece := run .start bytes

/-- The bytes as characters, the replacement character standing for each ill-formed piece. -/
def decodeLossy (bytes : List UInt8) : List Char :=
  (pieces bytes).map (fun p => match p with | .char c _ => c | .bad _ _ => '\uFFFD')

/-- The first ill-formed bytes of a text, where they start, and what is wrong. -/
structure Malformed where
  /-- The offset of the first of the bytes. -/
  position : Nat
  /-- The ill-formed bytes. -/
  bytes : List UInt8
  /-- What is wrong with them. -/
  fault : Fault
  deriving DecidableEq, Repr

/-- The words for ill-formed bytes. -/
def Malformed.message (m : Malformed) : String :=
  let number (n : Nat) : String := String.ofList (decimalDigits n)
  let place :=
    match m.bytes with
    | [b] => " byte 0x" ++ String.ofList (hexPad 2 b.toNat) ++ " in position " ++ number m.position
    | bytes =>
      " bytes in position " ++ number m.position ++ "-"
        ++ number (m.position + bytes.length - 1)
  "\x27utf-8\x27 codec can\x27t decode" ++ place ++ ": " ++ m.fault.message

/-- The characters of pieces that start at an offset, or the first ill-formed one. -/
def collect : Nat → List Piece → Except Malformed (List Char)
  | _, [] => .ok []
  | position, .char c bytes :: rest => (collect (position + bytes.length) rest).map (c :: ·)
  | position, .bad fault bytes :: _ => .error ⟨position, bytes, fault⟩

/-- The characters of well-formed bytes. -/
def decode (bytes : List UInt8) : Except Malformed (List Char) := collect 0 (pieces bytes)

/-! ## Decoding in blocks -/

/-- The offset of the first piece that goes on beyond an offset; `position` is that of the first
piece of all. -/
def beginningAt (offset position : Nat) : List Piece → Nat
  | [] => position
  | p :: rest =>
    let next := position + p.bytes.length
    if offset < next then position else beginningAt offset next rest

/-- The offset of the first byte that is at hand when ill-formed bytes are found and the pieces are
read in blocks of a size: that of the block, or of a character that goes on into it. At the end
nothing is at hand but a character that is broken off. -/
def Malformed.atHandFrom (m : Malformed) (size : Nat) (ps : List Piece) : Nat :=
  match m.fault with
  | .invalidStart => beginningAt (m.position / size * size) 0 ps
  | .invalidContinuation => beginningAt ((m.position + m.bytes.length) / size * size) 0 ps
  | .unexpectedEnd => m.position

/-- The characters of well-formed bytes that are read in blocks of a size; the position of
ill-formed ones counts from the first byte that is at hand. -/
def decodeBlocks (size : Nat) (bytes : List UInt8) : Except Malformed (List Char) :=
  match decode bytes with
  | .ok s => .ok s
  | .error m => .error { m with position := m.position - m.atHandFrom size (pieces bytes) }

end SceneScript.Text.Utf8
