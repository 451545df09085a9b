/-!
# Characters

Classes of characters beyond ASCII, as lists of inclusive ranges of code points: `Text.isBlank`,
`Text.isWord` and `Text.isPrintable` each name their own list. Then the digits: hexadecimal ones,
written in a fixed width and read in either case, and the decimal digits of every script, which
stand in Unicode runs of ten; a run is known by its zero.
-/

namespace SceneScript.Text

/-! ## Ranges of code points -/

/-- A set of code points, as inclusive ranges. -/
abbrev CodePoints := List (Nat × Nat)

/-- Whether a character lies in one of the ranges. -/
def CodePoints.contains (ranges : CodePoints) (c : Char) : Bool :=
  ranges.any (fun r => r.1 ≤ c.toNat && c.toNat ≤ r.2)

/-- A property of every character of a text is checked along the text, not over all characters. -/
instance (priority := high) decidableForallMem (s : List Char) (p : Char → Prop)
    [DecidablePred p] : Decidable (∀ c ∈ s, p c) :=
  List.decidableBAll p s

/-! ## Hexadecimal digits -/

/-- The lower-case hexadecimal digit of a number below sixteen. -/
def hexDigit (n : Nat) : Char := if n < 10 then Char.ofNat (0x30 + n) else Char.ofNat (0x57 + n)

/-- The upper-case hexadecimal digit of a number below sixteen. -/
def hexDigitUpper (n : Nat) : Char :=
  if n < 10 then Char.ofNat (0x30 + n) else Char.ofNat (0x37 + n)

/-- The last `width` hexadecimal digits of a number, in lower case. -/
def hexPad (width n : Nat) : List Char :=
  (List.range width).reverse.map (fun i => hexDigit (n / Nat.pow 16 i % 16))

/-- The value of a hexadecimal digit of either case. -/
def hexValue? (c : Char) : Option Nat :=
  let n := c.toNat
  if 0x30 ≤ n && n ≤ 0x39 then some (n - 0x30)
  else if 0x61 ≤ n && n ≤ 0x66 then some (n - 0x57)
  else if 0x41 ≤ n && n ≤ 0x46 then some (n - 0x37)
  else none

/-! ## Decimal digits -/

/-- The zeros of the runs of ten decimal digits beyond ASCII. -/
def digitZeros : List Nat :=
  [0x660, 0x6F0, 0x7C0, 0x966, 0x9E6, 0xA66, 0xAE6, 0xB66, 0xBE6, 0xC66,
    0xCE6, 0xD66, 0xDE6, 0xE50, 0xED0, 0xF20, 0x1040, 0x1090, 0x17E0, 0x1810,
    0x1946, 0x19D0, 0x1A80, 0x1A90, 0x1B50, 0x1BB0, 0x1C40, 0x1C50, 0xA620, 0xA8D0,
    0xA900, 0xA9D0, 0xA9F0, 0xAA50, 0xABF0, 0xFF10, 0x104A0, 0x10D30, 0x11066, 0x110F0,
    0x11136, 0x111D0, 0x112F0, 0x11450, 0x114D0, 0x11650, 0x116C0, 0x11730, 0x118E0, 0x11950,
    0x11C50, 0x11D50, 0x11DA0, 0x16A60, 0x16AC0, 0x16B50, 0x1D7CE, 0x1D7D8, 0x1D7E2, 0x1D7EC,
    0x1D7F6, 0x1E140, 0x1E2F0, 0x1E950, 0x1FBF0]

/-- The value of a decimal digit, of any script. -/
def digitValue? (c : Char) : Option Nat :=
  if c.isDigit then some (c.toNat - 0x30)
  else if c.toNat < 0x80 then none
  else (digitZeros.find? (fun z => z ≤ c.toNat && c.toNat < z + 10)).map (fun z => c.toNat - z)

/-- Whether a character is a decimal digit, of any script. -/
def isDigit (c : Char) : Bool := (digitValue? c).isSome

/-- The number that a run of digits writes; anything else counts as zero. -/
def natOfDigits (s : List Char) : Nat :=
  s.foldl (fun n c => 10 * n + (digitValue? c).getD 0) 0

end SceneScript.Text
