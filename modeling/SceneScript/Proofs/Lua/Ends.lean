import SceneScript.Proofs.Lua.Scan

/-!
# White space at the ends of a line

White space in front of a line, or behind it, is in none of its statements. This holds as well where
a line ends inside a string that is never closed: what is put behind it belongs to the string, and
so to the last statement, but is trimmed off it.

Main statement: lines that are the same once they are trimmed have the same statements
(`statements_eq_of_trim_eq`).
-/

namespace SceneScript.Lua

open Text

/-! ## Code characters -/

theorem mem_of_mem_codeOf {mode : Mode} {s : List Char} {c : Char} (h : c ∈ codeOf mode s) :
    c ∈ s := by
  induction s generalizing mode with
  | nil => exact h
  | cons d s ih =>
    rw [codeOf, List.mem_append] at h
    rcases h with h | h
    · split at h
      · exact List.mem_singleton.1 h ▸ List.mem_cons_self
      · exact absurd h List.not_mem_nil
    · exact List.mem_cons_of_mem d (ih h)

theorem notMem_of_isBlank {b : List Char} (h : b.all isBlank = true) {c : Char}
    (hc : isBlank c = false) : c ∉ b := by
  intro hmem
  rw [List.all_eq_true.1 h c hmem] at hc
  cases hc

/-! ## Behind a line -/

section Behind

variable {b : List Char}

/-- What has no separator belongs to the last part of the text that it is put behind. -/
theorem splitFrom_append {separator : Char} (hb : separator ∉ b) (mode : Mode) (depth : ℤ)
    (s : List Char) : ∃ front part, splitFrom separator mode depth s = front ++ [part] ∧
      splitFrom separator mode depth (s ++ b) = front ++ [part ++ b] := by
  induction s generalizing mode depth with
  | nil => exact ⟨[], [], rfl, splitFrom_of_notMem fun hmem => hb (mem_of_mem_codeOf hmem)⟩
  | cons c s ih =>
    rw [List.cons_append, splitFrom, splitFrom]
    split
    · obtain ⟨front, part, hs, hsb⟩ := ih .code 0
      exact ⟨[] :: front, part, by rw [hs]; rfl, by rw [hsb]; rfl⟩
    · obtain ⟨front, part, hs, hsb⟩ := ih (mode.next c) (depth + mode.bracketStep c)
      rw [hs, hsb]
      cases front with
      | nil => exact ⟨[], c :: part, rfl, rfl⟩
      | cons first front => exact ⟨(c :: first) :: front, part, rfl, rfl⟩

theorem stripCommentFrom_of_notMem (hb : '-' ∉ b) (mode : Mode) : stripCommentFrom mode b = b := by
  refine stripCommentFrom_eq (List.Pairwise.isChain (List.pairwise_of_forall_mem_list ?_))
  rintro a ha c - ⟨rfl, -⟩
  exact hb (mem_of_mem_codeOf ha)

/-- What has no dash goes with the comment of the text that it is put behind, or stays. -/
theorem stripCommentFrom_append (hb : '-' ∉ b) (mode : Mode) (s : List Char) :
    stripCommentFrom mode (s ++ b) = stripCommentFrom mode s ∨
      stripCommentFrom mode (s ++ b) = stripCommentFrom mode s ++ b := by
  induction s generalizing mode with
  | nil => exact .inr (stripCommentFrom_of_notMem hb mode)
  | cons c s ih =>
    have hhead : (s ++ b).head? = some '-' ↔ s.head? = some '-' := by
      cases s with
      | nil => exact iff_of_false (fun h => hb (List.mem_of_head? h)) (by simp)
      | cons d s => rfl
    rw [List.cons_append, stripCommentFrom, stripCommentFrom]
    simp only [hhead]
    split
    · exact .inl rfl
    · exact (ih (mode.next c)).imp (congrArg (c :: ·)) (congrArg (c :: ·))

theorem statements_append_blank (hb : b.all isBlank = true) (l : List Char) :
    statements (l ++ b) = statements l := by
  have htabs : replaceChar '\t' "    ".toList (l ++ b) =
      replaceChar '\t' "    ".toList l ++ replaceChar '\t' "    ".toList b := by
    simp [replaceChar]
  have hblank := replaceChar_blank hb '\t' "    ".toList (by decide)
  rw [statements, statements, htabs]
  generalize replaceChar '\t' "    ".toList l = code
  generalize replaceChar '\t' "    ".toList b = behind at hblank
  have hdash := notMem_of_isBlank hblank (c := '-') (by decide)
  have hsemicolon := notMem_of_isBlank hblank (c := ';') (by decide)
  rcases stripCommentFrom_append hdash .code code with hcomment | hcomment
  · rw [stripComment, hcomment, ← stripComment]
  · obtain ⟨front, part, hs, hbehind⟩ := splitFrom_append hsemicolon .code 0 (stripComment code)
    rw [stripComment, hcomment, ← stripComment, splitTopLevel, hbehind, splitTopLevel, hs,
      List.map_append, List.map_singleton, trim_append_blank hblank, List.map_append,
      List.map_singleton]

end Behind

/-! ## In front of a line -/

section Front

variable {f : List Char}

theorem stripComment_blank_append (hf : f.all isBlank = true) (s : List Char) :
    stripComment (f ++ s) = f ++ stripComment s := by
  induction f with
  | nil => rfl
  | cons c f ih =>
    rw [List.all_cons, Bool.and_eq_true] at hf
    obtain ⟨-, hquote, hdash⟩ := code_of_isBlank hf.1
    rw [stripComment, List.cons_append, stripCommentFrom, if_neg fun h => hdash h.2.1,
      next_code_of_not_isQuote hquote]
    exact congrArg (c :: ·) (ih hf.2)

theorem bracketStep_of_isBlank {c : Char} (h : isBlank c = true) : bracketStep c = 0 := by
  have hne : ∀ d, isBlank d = false → c ≠ d := by
    rintro d hd rfl
    rw [hd] at h
    cases h
  simp [bracketStep, hne '(' (by decide), hne '[' (by decide), hne '\x7b' (by decide),
    hne ')' (by decide), hne ']' (by decide), hne '\x7d' (by decide)]

/-- Blanks belong to the first part of the text that they are put in front of. -/
theorem splitTopLevel_blank_append (hf : f.all isBlank = true) (s : List Char) :
    ∃ part rest, splitTopLevel ';' s = part :: rest ∧
      splitTopLevel ';' (f ++ s) = (f ++ part) :: rest := by
  induction f with
  | nil =>
    obtain ⟨part, rest, hs⟩ := List.exists_cons_of_ne_nil (splitFrom_ne_nil ';' .code 0 s)
    exact ⟨part, rest, hs, hs⟩
  | cons c f ih =>
    have hblank : isBlank c = true ∧ f.all isBlank = true := by
      rwa [List.all_cons, Bool.and_eq_true] at hf
    obtain ⟨part, rest, hs, hfs⟩ := ih hblank.2
    obtain ⟨hsemicolon, hquote, -⟩ := code_of_isBlank hblank.1
    have hcut : cuts ';' .code 0 c = false := by simp [cuts, hsemicolon]
    have hdepth : (0 : ℤ) + Mode.bracketStep .code c = 0 := by
      rw [Mode.bracketStep, if_pos rfl, bracketStep_of_isBlank hblank.1]
      rfl
    refine ⟨part, rest, hs, ?_⟩
    rw [List.cons_append, splitTopLevel, splitFrom, hcut, next_code_of_not_isQuote hquote, hdepth]
    exact congrArg (consHead c) hfs

theorem statements_blank_append (hf : f.all isBlank = true) (l : List Char) :
    statements (f ++ l) = statements l := by
  have htabs : replaceChar '\t' "    ".toList (f ++ l) =
      replaceChar '\t' "    ".toList f ++ replaceChar '\t' "    ".toList l := by
    simp [replaceChar]
  have hblank := replaceChar_blank hf '\t' "    ".toList (by decide)
  obtain ⟨part, rest, hs, hfs⟩ := splitTopLevel_blank_append hblank
    (stripComment (replaceChar '\t' "    ".toList l))
  rw [statements, statements, htabs, stripComment_blank_append hblank, hfs, hs, List.map_cons,
    List.map_cons, trim_blank_append hblank]

end Front

/-! ## Trimmed lines -/

/-- A line has the statements of what is left of it once it is trimmed. -/
theorem statements_trim (l : List Char) : statements (trim l) = statements l := by
  obtain ⟨front, back, hl, hfront, hback⟩ := exists_eq_trim l
  calc statements (trim l) = statements (front ++ trim l ++ back) := by
        rw [statements_append_blank hback, statements_blank_append hfront]
    _ = statements l := by rw [← hl]

theorem statements_eq_of_trim_eq {l l' : List Char} (h : trim l = trim l') :
    statements l = statements l' := by
  rw [← statements_trim l, h, statements_trim l']

end SceneScript.Lua
