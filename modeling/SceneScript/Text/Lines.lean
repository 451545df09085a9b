/-!
# Splitting and joining

A text is split at every occurrence of one character, so it has one part more than separators.
`join_split` says that joining the parts gives the text back.
-/

namespace SceneScript.Text

/-- The parts of a text between the occurrences of a separator. -/
def split (separator : Char) : List Char → List (List Char)
  | [] => [[]]
  | c :: s =>
    if c = separator then [] :: split separator s
    else
      match split separator s with
      | [] => [[c]]
      | part :: parts => (c :: part) :: parts

/-- Parts put together with a separator between them. -/
def join (separator : List Char) : List (List Char) → List Char
  | [] => []
  | [part] => part
  | part :: next :: parts => part ++ separator ++ join separator (next :: parts)

/-- The lines of a text. -/
def lines (s : List Char) : List (List Char) := split '\n' s

/-- A text with every occurrence of a character replaced. -/
def replaceChar (c : Char) (by_ : List Char) (s : List Char) : List Char :=
  s.flatMap (fun d => if d = c then by_ else [d])

/-- A text with a line feed for every line break, be it a carriage return, a line feed, or both. -/
def unifyBreaks : List Char → List Char
  | [] => []
  | '\r' :: '\n' :: s => '\n' :: unifyBreaks s
  | c :: s => (if c = '\r' then '\n' else c) :: unifyBreaks s

theorem split_ne_nil (separator : Char) (s : List Char) : split separator s ≠ [] := by
  cases s with
  | nil => simp [split]
  | cons c s =>
    by_cases h : c = separator
    · simp [split, h]
    · simp only [split, h, if_false]
      split <;> simp

theorem join_cons {separator : List Char} {part : List Char} {parts : List (List Char)}
    (h : parts ≠ []) :
    join separator (part :: parts) = part ++ separator ++ join separator parts := by
  cases parts with
  | nil => exact absurd rfl h
  | cons next parts => rfl

/-- Joining the parts of a text with the separator gives the text back. -/
theorem join_split (separator : Char) (s : List Char) :
    join [separator] (split separator s) = s := by
  induction s with
  | nil => rfl
  | cons c s ih =>
    by_cases h : c = separator
    · subst h
      simp only [split, if_true]
      rw [join_cons (split_ne_nil c s), ih]
      simp
    · simp only [split, h, if_false]
      have hne := split_ne_nil separator s
      cases hs : split separator s with
      | nil => exact absurd hs hne
      | cons part parts =>
        rw [hs] at ih
        cases parts with
        | nil => simp only [join] at ih ⊢; rw [ih]
        | cons next parts =>
          rw [join_cons (by simp)] at ih ⊢
          simp only [List.cons_append, ih]

end SceneScript.Text
