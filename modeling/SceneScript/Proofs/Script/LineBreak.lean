import SceneScript.Proofs.Script.Layout

/-!
# Line breaks of written scripts

A script is broken by what stands before its line feeds: it is broken by line feeds alone exactly
when no line but the last ends in a carriage return (`LineBreak.hasCrlf_join`). So lines that are
joined with a line break are read back with it, if a carriage return at the end of a line cannot be
taken for a part of the break (`LineBreak.Joins`).

Main statements: the line break of joined lines is the one they are joined with
(`LineBreak.Joins.ofText_join`), and their lines are these lines (`LineBreak.Joins.lines_join`).
-/

namespace SceneScript.LineBreak

open Text

/-! ## Carriage returns -/

theorem hasCrlf_lineFeed {l : Line} (h : '\n' ∉ l) (s : List Char) :
    hasCrlf (l ++ '\n' :: s) = (decide (l.getLast? = some '\r') || hasCrlf s) := by
  induction l with
  | nil => simp [hasCrlf]
  | cons c l ih =>
    rw [List.mem_cons, not_or] at h
    rw [List.cons_append, hasCrlf, ih h.2]
    cases l with
    | nil => simp
    | cons d l =>
      have hd : ('\n' : Char) ≠ d := fun heq => h.2 (heq ▸ List.mem_cons_self)
      simp [hd.symm]

theorem hasCrlf_of_lineFeed_notMem {l : Line} (h : '\n' ∉ l) : hasCrlf l = false := by
  induction l with
  | nil => rfl
  | cons c l ih =>
    rw [List.mem_cons, not_or] at h
    rw [hasCrlf, ih h.2, Bool.or_false]
    cases l with
    | nil => simp
    | cons d l =>
      have hd : ('\n' : Char) ≠ d := fun heq => h.2 (heq ▸ List.mem_cons_self)
      simp [hd.symm]

/-- Lines that are joined with line feeds are broken by them alone exactly when no line but the last
ends in a carriage return. -/
theorem hasCrlf_join {ls : List Line} (h : ∀ l ∈ ls, '\n' ∉ l) :
    hasCrlf (join ['\n'] ls) = false ↔ ∀ l ∈ ls.dropLast, l.getLast? ≠ some '\r' := by
  induction ls with
  | nil => simp [join, hasCrlf]
  | cons l ls ih =>
    rw [List.forall_mem_cons] at h
    by_cases hls : ls = []
    · subst hls
      simpa [join] using hasCrlf_of_lineFeed_notMem h.1
    · rw [join_cons hls, List.append_assoc, List.singleton_append, hasCrlf_lineFeed h.1,
        List.dropLast_cons_of_ne_nil hls, List.forall_mem_cons, Bool.or_eq_false_iff, ih h.2,
        decide_eq_false_iff_not]

/-- In a script that is broken by line feeds alone no line but the last ends in a carriage
return. -/
theorem getLast?_ne_of_ofText {s : List Char} (h : ofText s = .lf) :
    ∀ l ∈ (Text.lines s).dropLast, l.getLast? ≠ some '\r' := by
  have hcrlf : hasCrlf s = false := by
    by_contra hs
    rw [ofText, if_pos (by simpa using hs)] at h
    cases h
  rw [← join_split '\n' s] at hcrlf
  exact (hasCrlf_join notMem_of_mem_split).1 hcrlf

/-! ## Joined lines -/

/-- That lines can be joined with a line break and read back, also with lines put in behind them:
none holds a line feed, and no carriage return at the end of a line is taken for a part of a
break. -/
structure Joins (b : LineBreak) (ls : List Line) : Prop where
  lineFeed : ∀ l ∈ ls, '\n' ∉ l
  lf : b = .lf → ∀ l ∈ ls, l.getLast? ≠ some '\r'
  last : ∀ l ∈ ls.getLast?, l.getLast? ≠ some '\r'

/-- That a line can be put in anywhere. -/
structure Plain (l : Line) : Prop where
  lineFeed : '\n' ∉ l
  carriageReturn : l.getLast? ≠ some '\r'

theorem plain_of_flat {l : Line} (h : Flat l) : Plain l :=
  ⟨h.lineFeed, fun hlast => h.carriageReturn (List.mem_of_getLast? hlast)⟩

theorem getLast?_ne_of_mem_lines (d : Drawing) {indent : List Char} :
    ∀ l ∈ d.lines indent, l.getLast? ≠ some '\r' := by
  intro l hl hlast
  obtain ⟨t, rfl, hne, ht⟩ := d.exists_flat_of_mem_lines l hl
  rw [List.getLast?_append_of_ne_nil _ hne] at hlast
  exact ht.carriageReturn (List.mem_of_getLast? hlast)

namespace Joins

variable {b : LineBreak}

theorem of_plain {ls : List Line} (h : ∀ l ∈ ls, Plain l) : b.Joins ls :=
  ⟨fun l hl => (h l hl).lineFeed, fun _ l hl => (h l hl).carriageReturn,
    fun l hl => (h l (List.mem_of_getLast? hl)).carriageReturn⟩

theorem insert {front back new : List Line} (h : b.Joins (front ++ back))
    (hnew : ∀ l ∈ new, Plain l) : b.Joins (front ++ new ++ back) := by
  have hmem : ∀ l ∈ front ++ new ++ back, l ∈ front ++ back ∨ l ∈ new := by
    intro l hl
    simp only [List.mem_append] at hl ⊢
    tauto
  refine ⟨fun l hl => (hmem l hl).elim (h.lineFeed l) fun hl => (hnew l hl).lineFeed,
    fun hb l hl => (hmem l hl).elim (h.lf hb l) fun hl => (hnew l hl).carriageReturn,
    fun l hl => ?_⟩
  by_cases hback : back = []
  · subst hback
    by_cases hne : new = []
    · subst hne
      exact h.last l (by simpa using hl)
    · rw [List.append_nil, List.getLast?_append_of_ne_nil _ hne] at hl
      exact (hnew l (List.mem_of_getLast? hl)).carriageReturn
  · have hlast := h.last l
    rw [List.getLast?_append_of_ne_nil _ hback] at hl hlast
    exact hlast hl

variable {ls : List Line} (h : b.Joins ls)

include h

/-- The line break of several joined lines. -/
theorem ofText_join (hlength : 2 ≤ ls.length) : ofText (join b.text ls) = b := by
  cases b with
  | lf =>
    have hdrop : ∀ l ∈ ls.dropLast, l.getLast? ≠ some '\r' := fun l hl =>
      h.lf rfl l (List.dropLast_subset ls hl)
    rw [ofText, text, (hasCrlf_join h.lineFeed).2 hdrop]
    rfl
  | crlf =>
    obtain ⟨l, back, rfl⟩ := List.exists_cons_of_length_pos (l := ls) (by omega)
    obtain ⟨k, rest, rfl⟩ := List.exists_cons_of_length_pos (l := back)
      (Nat.lt_of_succ_lt_succ hlength)
    have hjoin : join ['\r', '\n'] (l :: k :: rest) =
        (l ++ ['\r']) ++ '\n' :: join ['\r', '\n'] (k :: rest) := by simp [join]
    have hfeed : '\n' ∉ l ++ ['\r'] := by simpa using h.lineFeed l List.mem_cons_self
    rw [ofText, text, hjoin, hasCrlf_lineFeed hfeed]
    simp

/-- The lines of joined lines, with the line break that they are joined with. -/
theorem lines_join (hne : ls ≠ []) : b.lines (join b.text ls) = ls := by
  cases b with
  | lf => exact Text.lines_join hne h.lineFeed
  | crlf =>
    obtain ⟨front, l, rfl⟩ := List.eq_nil_or_concat' ls |>.resolve_left hne
    have hfeed := List.forall_mem_append.1 h.lineFeed
    have hlast : l.getLast? ≠ some '\r' := h.last l (by simp)
    have hdrop : ∀ k : Line, dropReturn (k ++ ['\r']) = k := by simp [dropReturn]
    rw [lines, text, lines_join_crlf (hfeed.2 l (List.mem_singleton_self l)) hfeed.1,
      List.map_append, List.map_map, List.map_singleton, dropReturn, if_neg hlast]
    exact congrArg (· ++ [l]) (List.map_id'' hdrop front)

/-- The lines of joined lines, with the line break that they have. A single line has none. -/
theorem lines_ofText_join (hne : ls ≠ []) :
    (ofText (join b.text ls)).lines (join b.text ls) = ls := by
  rcases Nat.lt_or_ge ls.length 2 with hlength | hlength
  · obtain ⟨l, rfl⟩ : ∃ l, ls = [l] :=
      List.length_eq_one_iff.1 (by have := List.length_pos_iff.2 hne; omega)
    have hfeed := h.lineFeed l (List.mem_singleton_self l)
    rw [join, ofText, hasCrlf_of_lineFeed_notMem hfeed]
    exact split_of_notMem hfeed
  · rw [h.ofText_join hlength, h.lines_join hne]

end Joins

end SceneScript.LineBreak
