import SceneScript.Text.Blank
import SceneScript.Text.Word

/-!
# Matching at the front of a text

Each matcher answers with what follows the match. They are the pieces from which the fixed
patterns of statements are put together.
-/

namespace SceneScript.Text

/-- The rest of a text after a word at its front. -/
def afterWord? : List Char → List Char → Option (List Char)
  | [], s => some s
  | _ :: _, [] => none
  | a :: word, c :: s => if a = c then afterWord? word s else none

/-- The rest of a text after a character at its front. -/
def afterChar? (a : Char) (s : List Char) : Option (List Char) := afterWord? [a] s

/-- The rest of a text after one or more blanks at its front. -/
def afterBlanks? : List Char → Option (List Char)
  | [] => none
  | c :: s => if isBlank c then some (trimLeft s) else none

/-- Whether a word cannot go on at the front of a text. -/
def atWordEnd : List Char → Bool
  | [] => true
  | c :: _ => !isWord c

/-- Whether a text is at its end, or before one last line break. -/
def atEnd (s : List Char) : Bool := s = [] || s = ['\n']

theorem afterWord?_append (word s : List Char) : afterWord? word (word ++ s) = some s := by
  induction word with
  | nil => rfl
  | cons a word ih => simp [afterWord?, ih]

theorem append_of_afterWord? {word s rest : List Char} (h : afterWord? word s = some rest) :
    s = word ++ rest := by
  induction word generalizing s with
  | nil => simpa [afterWord?] using h
  | cons a word ih =>
    cases s with
    | nil => simp [afterWord?] at h
    | cons c s =>
      by_cases hc : a = c
      · subst hc
        simp only [afterWord?, if_true] at h
        rw [ih h]
        rfl
      · simp [afterWord?, hc] at h

end SceneScript.Text
