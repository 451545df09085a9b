import Mathlib.Data.List.TakeWhile
import SceneScript.Script.Patch

/-!
# Lines of joined texts

Splitting undoes joining when no part holds the separator (`split_join`), so the lines of a script
are the lines that it was put together from: one line feed after each (`lines_join`), or a carriage
return and a line feed (`lines_join_crlf`). A text without a carriage return is broken by line
feeds alone (`LineBreak.ofText_eq_lf`).
-/

namespace SceneScript.Text

/-! ## Splitting -/

theorem split_append_cons {separator : Char} {part : List Char} (h : separator ∉ part)
    (s : List Char) : split separator (part ++ separator :: s) = part :: split separator s := by
  induction part with
  | nil => simp [split]
  | cons c part ih =>
    simp only [List.mem_cons, not_or] at h
    simp [split, Ne.symm h.1, ih h.2]

theorem split_of_notMem {separator : Char} {part : List Char} (h : separator ∉ part) :
    split separator part = [part] := by
  induction part with
  | nil => rfl
  | cons c part ih =>
    simp only [List.mem_cons, not_or] at h
    simp [split, Ne.symm h.1, ih h.2]

/-- Splitting undoes joining. -/
theorem split_join {separator : Char} {parts : List (List Char)} (hne : parts ≠ [])
    (h : ∀ part ∈ parts, separator ∉ part) : split separator (join [separator] parts) = parts := by
  induction parts with
  | nil => exact absurd rfl hne
  | cons part parts ih =>
    have hpart := h part List.mem_cons_self
    by_cases hp : parts = []
    · subst hp
      exact split_of_notMem hpart
    · rw [join_cons hp, List.append_assoc, List.singleton_append, split_append_cons hpart,
        ih hp (fun q hq => h q (List.mem_cons_of_mem _ hq))]

theorem join_append {separator : List Char} {a b : List (List Char)} (ha : a ≠ []) (hb : b ≠ []) :
    join separator (a ++ b) = join separator a ++ separator ++ join separator b := by
  induction a with
  | nil => exact absurd rfl ha
  | cons part a ih =>
    by_cases hp : a = []
    · subst hp
      rw [List.singleton_append, join_cons hb]
      rfl
    · rw [List.cons_append, join_cons (by simp [hp]), join_cons hp, ih hp]
      simp only [List.append_assoc]

/-- The text of some lines, each followed by a line feed. -/
theorem join_append_singleton_nil {separator : List Char} {ls : List (List Char)} (h : ls ≠ []) :
    join separator (ls ++ [[]]) = join separator ls ++ separator := by
  rw [join_append h (by simp)]
  exact List.append_nil _

/-- The lines of joined lines. -/
theorem lines_join {ls : List (List Char)} (hne : ls ≠ []) (h : ∀ l ∈ ls, '\n' ∉ l) :
    lines (join ['\n'] ls) = ls :=
  split_join hne h

/-- Lines joined by a carriage return and a line feed are lines that end in a carriage return, but
for the last. -/
theorem join_crlf (l : List Char) (ls : List (List Char)) :
    join ['\r', '\n'] (ls ++ [l]) = join ['\n'] (ls.map (· ++ ['\r']) ++ [l]) := by
  induction ls with
  | nil => rfl
  | cons k ls ih =>
    rw [List.cons_append, join_cons (by simp), ih, List.map_cons, List.cons_append,
      join_cons (by simp)]
    simp

theorem lines_join_crlf {l : List Char} {ls : List (List Char)} (hl : '\n' ∉ l)
    (h : ∀ k ∈ ls, '\n' ∉ k) :
    lines (join ['\r', '\n'] (ls ++ [l])) = ls.map (· ++ ['\r']) ++ [l] := by
  rw [join_crlf, lines_join (by simp)]
  intro k hk
  rcases List.mem_append.1 hk with hk | hk
  · obtain ⟨j, hj, rfl⟩ := List.mem_map.1 hk
    simp [h j hj]
  · obtain rfl := List.mem_singleton.1 hk
    exact hl

theorem mem_join {separator : List Char} {parts : List (List Char)} {c : Char}
    (h : c ∈ join separator parts) : c ∈ separator ∨ ∃ part ∈ parts, c ∈ part := by
  induction parts with
  | nil => simp [join] at h
  | cons part parts ih =>
    by_cases hp : parts = []
    · subst hp
      exact .inr ⟨part, List.mem_cons_self, h⟩
    · rw [join_cons hp, List.append_assoc, List.mem_append, List.mem_append] at h
      rcases h with h | h | h
      · exact .inr ⟨part, List.mem_cons_self, h⟩
      · exact .inl h
      · obtain h | ⟨q, hq, hc⟩ := ih h
        · exact .inl h
        · exact .inr ⟨q, List.mem_cons_of_mem _ hq, hc⟩

/-- A part stands in the joined text. -/
theorem infix_join_of_mem {separator part : List Char} {parts : List (List Char)}
    (h : part ∈ parts) : part <:+: join separator parts := by
  induction parts with
  | nil => exact absurd h List.not_mem_nil
  | cons first parts ih =>
    by_cases hnil : parts = []
    · subst hnil
      rw [List.mem_singleton.1 h]
      exact List.infix_rfl
    · rw [join_cons hnil]
      rcases List.mem_cons.1 h with rfl | h
      · rw [List.append_assoc]
        exact (List.prefix_append ..).isInfix
      · exact (ih h).trans (List.suffix_append ..).isInfix

/-- A line is a part of the text. -/
theorem infix_of_mem_lines {l s : List Char} (h : l ∈ lines s) : l <:+: s := by
  have : l <:+: join ['\n'] (lines s) := infix_join_of_mem h
  rwa [lines, join_split] at this

end SceneScript.Text

namespace SceneScript.LineBreak

/-! ## Line breaks -/

theorem hasCrlf_of_notMem {s : List Char} (h : '\r' ∉ s) : hasCrlf s = false := by
  induction s with
  | nil => rfl
  | cons c s ih =>
    simp only [List.mem_cons, not_or] at h
    simp [hasCrlf, Ne.symm h.1, ih h.2]

/-- A text without a carriage return is broken by line feeds. -/
theorem ofText_eq_lf {s : List Char} (h : '\r' ∉ s) : ofText s = .lf := by
  simp [ofText, hasCrlf_of_notMem h]

end SceneScript.LineBreak
