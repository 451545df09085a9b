import SceneScript.Text.Character

/-!
# Blanks

White space is the Unicode white space together with the four ASCII separators `U+001C` to
`U+001F`. `trim` takes it off both ends, `indentOf` reads it off the front.

`indentOf_append` says that nothing else is touched: a line is its indent followed by the rest.
-/

namespace SceneScript.Text

/-- The code points that count as white space. -/
def blanks : CodePoints :=
  [(0x09, 0x0D), (0x1C, 0x20), (0x85, 0x85), (0xA0, 0xA0), (0x1680, 0x1680), (0x2000, 0x200A),
    (0x2028, 0x2029), (0x202F, 0x202F), (0x205F, 0x205F), (0x3000, 0x3000)]

/-- Whether a character is white space. -/
def isBlank (c : Char) : Bool := blanks.contains c

/-- A text without the white space at its front. -/
def trimLeft (s : List Char) : List Char := s.dropWhile isBlank

/-- A text without the white space at its end. -/
def trimRight (s : List Char) : List Char := (s.reverse.dropWhile isBlank).reverse

/-- A text without white space at either end. -/
def trim (s : List Char) : List Char := trimRight (trimLeft s)

/-- Whether a text holds nothing but white space. -/
def isBlankText (s : List Char) : Bool := s.all isBlank

/-- The white space at the front of a line. -/
def indentOf (s : List Char) : List Char := s.takeWhile isBlank

/-- A text without white space at either end, for strings. -/
def trimString (s : String) : String := String.ofList (trim s.toList)

/-! ## What trimming keeps -/

theorem indentOf_append (s : List Char) : indentOf s ++ trimLeft s = s :=
  List.takeWhile_append_dropWhile

end SceneScript.Text
