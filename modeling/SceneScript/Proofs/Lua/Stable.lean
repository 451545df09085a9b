import SceneScript.Proofs.Lua.Prefix
import SceneScript.Proofs.Text.Lines

/-!
# Parts and statements read again

A scanner cuts a text only where it stands in code and outside brackets, which is how it starts a
text. So it goes over a part of a text as it went over the text: the parts are cut no further
(`splitTopLevel_of_mem`), and no comment starts in a part of a text in which none does
(`stripComment_of_mem`). Trimming takes nothing from a part that the scanners go by
(`splitTopLevel_trim`, `stripComment_trim`).

Main statement: splitting a text loses nothing and is over after one time, and so is reading the
statements of a line (`parts_and_statements_stable`).
-/

namespace SceneScript.Lua

open Text

/-! ## Parts -/

section Parts

variable {separator : Char} {mode : Mode} {depth : ℤ} {s part : List Char}
  {parts : List (List Char)}

/-- The parts of a text are cut no further: the first one where the scanner stands in front of the
text, the others from the start. -/
theorem splitFrom_of_parts (h : splitFrom separator mode depth s = part :: parts) :
    splitFrom separator mode depth part = [part] ∧
      ∀ p ∈ parts, splitTopLevel separator p = [p] := by
  induction s generalizing mode depth part parts with
  | nil =>
    obtain ⟨rfl, rfl⟩ := List.cons.inj h
    exact ⟨rfl, by simp⟩
  | cons c s ih =>
    rw [splitFrom] at h
    split at h
    · obtain ⟨rfl, rfl⟩ := List.cons.inj h
      obtain ⟨first, rest, hs⟩ := List.exists_cons_of_ne_nil (splitFrom_ne_nil separator .code 0 s)
      exact ⟨rfl, by rw [hs]; exact List.forall_mem_cons.2 (ih hs)⟩
    · next hcut =>
      obtain ⟨first, rest, hs⟩ := List.exists_cons_of_ne_nil
        (splitFrom_ne_nil separator (mode.next c) (depth + mode.bracketStep c) s)
      rw [hs] at h
      obtain ⟨rfl, rfl⟩ := List.cons.inj h
      obtain ⟨hfirst, hrest⟩ := ih hs
      refine ⟨?_, hrest⟩
      rw [splitFrom, if_neg hcut, hfirst]
      rfl

/-- Splitting a part again gives just that part. -/
theorem splitTopLevel_of_mem (h : part ∈ splitTopLevel separator s) :
    splitTopLevel separator part = [part] := by
  obtain ⟨first, rest, hs⟩ := List.exists_cons_of_ne_nil (splitFrom_ne_nil separator .code 0 s)
  obtain ⟨hfirst, hrest⟩ := splitFrom_of_parts hs
  rw [splitTopLevel, hs] at h
  rcases List.mem_cons.1 h with rfl | h
  · exact hfirst
  · exact hrest part h

/-- A text that is not cut is not cut without its end either. -/
theorem splitFrom_of_append {t : List Char}
    (h : splitFrom separator mode depth (s ++ t) = [s ++ t]) :
    splitFrom separator mode depth s = [s] := by
  induction s generalizing mode depth with
  | nil => rfl
  | cons c s ih =>
    rw [List.cons_append, splitFrom] at h
    split at h
    · cases h
    · next hcut =>
      obtain ⟨first, rest, hs⟩ := List.exists_cons_of_ne_nil
        (splitFrom_ne_nil separator (mode.next c) (depth + mode.bracketStep c) (s ++ t))
      rw [hs] at h
      obtain ⟨hfirst, rfl⟩ := List.cons.inj h
      obtain rfl := (List.cons.inj hfirst).2
      rw [splitFrom, if_neg hcut, ih hs]
      rfl

/-- The first part is at the front of the text. -/
theorem prefix_of_splitFrom (h : splitFrom separator mode depth s = part :: parts) :
    part <+: s := by
  have hjoin := join_splitFrom separator mode depth s
  rw [h] at hjoin
  rw [← hjoin]
  cases parts with
  | nil => exact List.prefix_rfl
  | cons next parts =>
    rw [join_cons (by simp), List.append_assoc]
    exact List.prefix_append part _

/-- Trimming a text that is not cut leaves one that is not cut. -/
theorem splitTopLevel_trim (h : splitTopLevel ';' part = [part]) :
    splitTopLevel ';' (trim part) = [trim part] := by
  obtain ⟨front, back, hpart, hfront, -⟩ := exists_eq_trim part
  obtain ⟨first, rest, htrim, hblanks⟩ := splitTopLevel_blank_append hfront (trim part ++ back)
  rw [← List.append_assoc, ← hpart, h] at hblanks
  obtain ⟨hfirst, rfl⟩ := List.cons.inj hblanks
  obtain rfl : trim part ++ back = first := by
    rw [hpart, List.append_assoc] at hfirst
    exact List.append_cancel_left hfirst
  exact splitFrom_of_append htrim

end Parts

/-! ## Comments -/

section Comments

variable {mode : Mode} {s : List Char}

theorem stripCommentFrom_cons_eq_self {c : Char} : stripCommentFrom mode (c :: s) = c :: s ↔
    ¬(mode = .code ∧ c = '-' ∧ s.head? = some '-') ∧ stripCommentFrom (mode.next c) s = s := by
  rw [stripCommentFrom]
  split
  · next hdashes => simp [hdashes]
  · next hdashes => simp [hdashes]

/-- A comment that is cut off leaves none behind. -/
theorem stripCommentFrom_idem (mode : Mode) (s : List Char) :
    stripCommentFrom mode (stripCommentFrom mode s) = stripCommentFrom mode s := by
  induction s generalizing mode with
  | nil => rfl
  | cons c s ih =>
    rw [stripCommentFrom]
    split
    · rfl
    · next hdashes =>
      refine stripCommentFrom_cons_eq_self.2 ⟨?_, ih _⟩
      rintro ⟨hmode, hc, hhead⟩
      refine hdashes ⟨hmode, hc, ?_⟩
      -- what is left of the text starts as the text does
      cases s with
      | nil => cases hhead
      | cons d s =>
        rw [stripCommentFrom] at hhead
        split at hhead
        · cases hhead
        · exact hhead

/-- A text without comment has none without its end either. -/
theorem stripCommentFrom_of_append {t : List Char} (h : stripCommentFrom mode (s ++ t) = s ++ t) :
    stripCommentFrom mode s = s := by
  induction s generalizing mode with
  | nil => rfl
  | cons c s ih =>
    rw [List.cons_append, stripCommentFrom_cons_eq_self] at h
    refine stripCommentFrom_cons_eq_self.2 ⟨?_, ih h.2⟩
    rintro ⟨hmode, hc, hhead⟩
    refine h.1 ⟨hmode, hc, ?_⟩
    rw [List.head?_append, hhead]
    rfl

/-- No comment starts in the parts of a text without comment, the first one read where the scanner
stands in front of the text, the others from the start. -/
theorem stripCommentFrom_of_parts {separator : Char} {depth : ℤ} {part : List Char}
    {parts : List (List Char)} (hs : stripCommentFrom mode s = s)
    (h : splitFrom separator mode depth s = part :: parts) :
    stripCommentFrom mode part = part ∧ ∀ p ∈ parts, stripComment p = p := by
  induction s generalizing mode depth part parts with
  | nil =>
    obtain ⟨rfl, rfl⟩ := List.cons.inj h
    exact ⟨rfl, by simp⟩
  | cons c s ih =>
    have htail := (stripCommentFrom_cons_eq_self.1 hs).2
    obtain ⟨t, ht⟩ := prefix_of_splitFrom h
    refine ⟨stripCommentFrom_of_append (t := t) (by rw [ht, hs]), ?_⟩
    rw [splitFrom] at h
    split at h
    · next hcut =>
      obtain ⟨-, rfl⟩ := List.cons.inj h
      simp only [cuts, Bool.and_eq_true, decide_eq_true_eq, Bool.not_eq_true'] at hcut
      obtain ⟨⟨⟨⟨rfl, -⟩, -⟩, hquote⟩, -⟩ := hcut
      rw [next_code_of_not_isQuote hquote] at htail
      obtain ⟨first, rest, hfirst⟩ :=
        List.exists_cons_of_ne_nil (splitFrom_ne_nil separator .code 0 s)
      rw [hfirst]
      exact List.forall_mem_cons.2 (ih htail hfirst)
    · obtain ⟨first, rest, hfirst⟩ := List.exists_cons_of_ne_nil
        (splitFrom_ne_nil separator (mode.next c) (depth + mode.bracketStep c) s)
      rw [hfirst] at h
      obtain ⟨-, rfl⟩ := List.cons.inj h
      exact (ih htail hfirst).2

/-- No comment starts in a part of a text without comment. -/
theorem stripComment_of_mem {separator : Char} {part : List Char} (hs : stripComment s = s)
    (h : part ∈ splitTopLevel separator s) : stripComment part = part := by
  obtain ⟨first, rest, hsplit⟩ := List.exists_cons_of_ne_nil (splitFrom_ne_nil separator .code 0 s)
  obtain ⟨hfirst, hrest⟩ := stripCommentFrom_of_parts hs hsplit
  rw [splitTopLevel, hsplit] at h
  rcases List.mem_cons.1 h with rfl | h
  · exact hfirst
  · exact hrest part h

/-- Trimming a text without comment leaves one without comment. -/
theorem stripComment_trim (h : stripComment s = s) : stripComment (trim s) = trim s := by
  obtain ⟨front, back, hs, hfront, -⟩ := exists_eq_trim s
  have hblanks := stripComment_blank_append hfront (trim s ++ back)
  rw [← List.append_assoc, ← hs, h] at hblanks
  have htrim : stripComment (trim s ++ back) = trim s ++ back := by
    refine (List.append_right_inj front).1 ?_
    rw [← hblanks, ← List.append_assoc, ← hs]
  exact stripCommentFrom_of_append htrim

end Comments

/-! ## Statements -/

section Statements

variable {line σ : List Char}

/-- A statement is what trimming leaves of a part of the line, without tabs and comment. -/
theorem exists_part_of_mem_statements (h : σ ∈ statements line) :
    ∃ part ∈ splitTopLevel ';' (stripComment (replaceChar '\t' "    ".toList line)),
      trim part = σ ∧ σ ≠ [] := by
  obtain ⟨hmem, hne⟩ := List.mem_filter.1 h
  obtain ⟨part, hpart, hσ⟩ := List.mem_map.1 hmem
  exact ⟨part, hpart, hσ, by simpa using hne⟩

theorem tab_notMem_replaceChar (s : List Char) : '\t' ∉ replaceChar '\t' "    ".toList s := by
  intro hmem
  obtain ⟨c, -, hc⟩ := List.mem_flatMap.1 hmem
  split_ifs at hc with htab
  · exact absurd hc (by decide)
  · exact htab (List.mem_singleton.1 hc).symm

theorem tab_notMem_of_mem_statements (h : σ ∈ statements line) : '\t' ∉ σ := by
  obtain ⟨part, hpart, rfl, -⟩ := exists_part_of_mem_statements h
  have hinside : part <:+: join [';'] _ := infix_join_of_mem hpart
  rw [join_splitTopLevel] at hinside
  intro hmem
  exact tab_notMem_replaceChar line
    (mem_of_mem_stripCommentFrom (hinside.subset ((isInfix_trim part).subset hmem)))

/-- The statement of a statement is the statement. -/
theorem statements_of_mem (h : σ ∈ statements line) : statements σ = [σ] := by
  have htab := tab_notMem_of_mem_statements h
  obtain ⟨part, hpart, rfl, hne⟩ := exists_part_of_mem_statements h
  have hcomment := stripComment_trim (stripComment_of_mem (stripCommentFrom_idem _ _) hpart)
  rw [statements, replaceChar_of_notMem _ htab, hcomment,
    splitTopLevel_trim (splitTopLevel_of_mem hpart), List.map_singleton, trim_trim,
    List.filter_cons_of_pos (by simpa using hne), List.filter_nil]

end Statements

/-- The parts of a text, joined by the separator, are the text, and each is the one part of itself.
The statements of a line are not empty, have no white space at their ends and no tabs, and each is
the one statement of itself, so that reading the statements again gives those of the line. -/
theorem parts_and_statements_stable (separator : Char) (s line : List Char) :
    (join [separator] (splitTopLevel separator s) = s ∧
      ∀ part ∈ splitTopLevel separator s, splitTopLevel separator part = [part]) ∧
    (∀ σ ∈ statements line, σ ≠ [] ∧ Tight σ ∧ '\t' ∉ σ ∧ statements σ = [σ]) ∧
    (statements line).flatMap statements = statements line := by
  refine ⟨⟨join_splitTopLevel separator s, fun part => splitTopLevel_of_mem⟩, fun σ hσ => ?_, ?_⟩
  · obtain ⟨part, -, rfl, hne⟩ := exists_part_of_mem_statements hσ
    exact ⟨hne, tight_trim hne, tab_notMem_of_mem_statements hσ, statements_of_mem hσ⟩
  · rw [List.flatMap_congr fun σ hσ => statements_of_mem hσ, List.flatMap_singleton']

/-- A string that holds dashes and a separator, and one that ends the line and is never closed. -/
def raggedLine : List Char := "f('--;') ;\tg(\"a;\\ ".toList

/-- The part and the statement at the end of a ragged line are stable. -/
theorem parts_and_statements_stable_raggedLine :
    ("\tg(\"a;\\ ".toList ∈ splitTopLevel ';' raggedLine ∧
      splitTopLevel ';' "\tg(\"a;\\ ".toList = ["\tg(\"a;\\ ".toList]) ∧
    "g(\"a;\\".toList ∈ statements raggedLine ∧
      statements "g(\"a;\\".toList = ["g(\"a;\\".toList] := by
  have hpart : "\tg(\"a;\\ ".toList ∈ splitTopLevel ';' raggedLine := by decide +kernel
  have hstatement : "g(\"a;\\".toList ∈ statements raggedLine := by decide +kernel
  have h := parts_and_statements_stable ';' raggedLine raggedLine
  exact ⟨⟨hpart, h.1.2 _ hpart⟩, hstatement, (h.2.1 _ hstatement).2.2.2⟩

end SceneScript.Lua
