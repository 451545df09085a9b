import SceneScript.Text.Character
import SceneScript.Text.Utf8

/-!
# Percent encoding

A name is written as the UTF-8 bytes of its characters, each byte as it is when it is an ASCII
letter, an ASCII digit or one of `- _ . ! ~ * \x27 ( )`, and as a percent sign with two upper-case
hexadecimal digits otherwise.

Reading is lenient: a percent sign without two hexadecimal digits stands for itself, characters
beyond ASCII stand for themselves, and the bytes of each run of ASCII characters are decoded on
their own, the replacement character standing for what is ill-formed.
-/

namespace SceneScript.Text.Percent

/-- Whether a byte is written as it is. -/
def isPlain (b : UInt8) : Bool :=
  let c := Char.ofNat b.toNat
  c.isAlphanum || "-_.!~*\x27()".toList.contains c

/-- A byte in percent encoding. -/
def encodeByte (b : UInt8) : List Char :=
  if isPlain b then [Char.ofNat b.toNat]
  else ['%', hexDigitUpper (b.toNat / 16), hexDigitUpper (b.toNat % 16)]

/-- A text in percent encoding. -/
def encode (s : List Char) : List Char := (Utf8.encode s).flatMap encodeByte

/-- The bytes that a run of ASCII characters stands for. -/
def bytes : List Char → List UInt8
  | [] => []
  | '%' :: a :: b :: s =>
    match hexValue? a, hexValue? b with
    | some x, some y => UInt8.ofNat (16 * x + y) :: bytes s
    | _, _ => 0x25 :: bytes (a :: b :: s)
  | c :: s => UInt8.ofNat c.toNat :: bytes s

/-- Whether a character is an ASCII one. -/
def isAscii (c : Char) : Bool := c.toNat < 0x80

/-- A run of characters that are all ASCII or all beyond it, decoded. -/
def decodeRun (run : List Char) : List Char :=
  if run.all isAscii then Utf8.decodeLossy (bytes run) else run

/-- A percent-encoded text, decoded. -/
def decode (s : List Char) : List Char :=
  (s.splitBy (fun a b => isAscii a == isAscii b)).flatMap decodeRun

end SceneScript.Text.Percent
