import SceneScript.Proofs.Lua.Ends

/-!
# A statement in front of any text

What stands behind a statement on its line may be anything: it may open a string that is never
closed, or be a comment in part. As long as it has no semicolon, the line has one statement, and
that starts with the one in front.

Main statement: `IsStatement.exists_statements_append`.
-/

namespace SceneScript.Lua

open Text

/-- A text in which no comment starts, nor with a character that follows, is kept in front of any
other. -/
theorem stripCommentFrom_append_of_isChain {mode : Mode} {s : List Char}
    (hchain : (codeOf mode s).IsChain fun a b => ¬IsDashes a b)
    (hlast : (codeOf mode s).getLast? ≠ some '-') (t : List Char) :
    stripCommentFrom mode (s ++ t) = s ++ stripCommentFrom (mode.after s) t := by
  induction s generalizing mode with
  | nil => rfl
  | cons c s ih =>
    have htail : (codeOf (mode.next c) s).IsChain fun a b => ¬IsDashes a b := by
      rw [codeOf, List.isChain_append] at hchain
      exact hchain.2.1
    have hlastTail : (codeOf (mode.next c) s).getLast? ≠ some '-' := by
      intro h
      rw [codeOf, List.getLast?_append, h] at hlast
      exact hlast rfl
    rw [List.cons_append, stripCommentFrom, if_neg, ih htail hlastTail]
    · rfl
    · rintro ⟨rfl, rfl, hs⟩
      cases s with
      | nil => exact hlast rfl
      | cons d s =>
        obtain rfl : d = '-' := by simpa using hs
        rw [codeOf_code_cons, next_code_of_not_isQuote (by decide), codeOf_code_cons,
          List.isChain_cons_cons] at hchain
        exact hchain.1 ⟨rfl, rfl⟩

theorem stripComment_append_of_scans {p : Char → Bool} {s : List Char} (h : Scans p s)
    (t : List Char) : stripComment (s ++ t) = s ++ stripComment t := by
  rw [stripComment, stripCommentFrom_append_of_isChain h.dashes h.last, h.mode, stripComment]

theorem mem_of_mem_stripCommentFrom {mode : Mode} {s : List Char} {c : Char}
    (h : c ∈ stripCommentFrom mode s) : c ∈ s := by
  induction s generalizing mode with
  | nil => exact h
  | cons d s ih =>
    rw [stripCommentFrom] at h
    split at h
    · exact absurd h List.not_mem_nil
    · rcases List.mem_cons.1 h with rfl | h
      · exact List.mem_cons_self
      · exact List.mem_cons_of_mem d (ih h)

/-- A line that starts with a statement, and has no semicolon behind it, has one statement, which
starts with the one in front. -/
theorem IsStatement.exists_statements_append {s : List Char} (h : IsStatement s)
    {front : List Char} (hfront : front.all isBlank = true) {t : List Char} (ht : ';' ∉ t) :
    ∃ u, statements (front ++ s ++ t) = [s ++ u] ∧ trim (s ++ u) = s ++ u := by
  have htabs : replaceChar '\t' "    ".toList (s ++ t) =
      s ++ replaceChar '\t' "    ".toList t := by
    conv_rhs => rw [← replaceChar_of_notMem "    ".toList h.flat.tab]
    simp only [replaceChar, List.flatMap_append]
  have hcode : ';' ∉ replaceChar '\t' "    ".toList t := by
    intro hmem
    obtain ⟨c, hc, hmem⟩ := List.mem_flatMap.1 hmem
    split_ifs at hmem
    · exact absurd hmem (by decide)
    · exact ht (List.mem_singleton.1 hmem ▸ hc)
  generalize replaceChar '\t' "    ".toList t = code at htabs hcode
  have hsemicolon : ';' ∉ codeOf .code (s ++ stripComment code) := by
    rw [codeOf_append, h.scans.mode, List.mem_append]
    rintro (hmem | hmem)
    · exact absurd (h.scans.code ';' hmem) (by decide)
    · exact hcode (mem_of_mem_stripCommentFrom (mem_of_mem_codeOf hmem))
  have htrim := h.tight.trim_append (stripComment code)
  have hne : (s ++ trimRight (stripComment code)).isEmpty = false := by
    simp [h.tight.ne_nil]
  refine ⟨trimRight (stripComment code), ?_, ?_⟩
  · rw [List.append_assoc, statements_blank_append hfront, statements, htabs,
      stripComment_append_of_scans h.scans, splitTopLevel, splitFrom_of_notMem hsemicolon,
      List.map_singleton, htrim, List.filter_cons_of_pos (by simp [hne]), List.filter_nil]
  · rw [← htrim, trim_trim]

end SceneScript.Lua
