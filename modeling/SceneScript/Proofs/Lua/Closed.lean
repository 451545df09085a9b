import Mathlib.Algebra.BigOperators.Group.List.Basic
import Mathlib.Algebra.Order.Ring.Int
import Mathlib.Data.List.Infix
import SceneScript.Proofs.Lua.Scan

/-!
# Closed arguments

An argument of a call may be a call itself, a table, or a string that holds commas and brackets. It
is closed (`IsClosed`) when its strings are, when its brackets outside strings nest, and when no
comma stands outside strings and brackets. Two scanners go over it: the one that looks for the end
of the call counts parentheses only and stays inside (`closing?_append_of_le`), the one that cuts at
commas counts brackets of all kinds and does not cut (`splitFrom_append_of_ne`). At its end both
stand where they stood in front of it.

Main statement: the arguments of a call, written with a comma and a blank between them, are read
back if they are closed, and a string literal is a closed argument from which its text is read back
(`arguments_and_literals_read_back`).
-/

namespace SceneScript.Lua

open Text

/-! ## Brackets -/

/-- What a character adds to the number of open parentheses. -/
def parenStep (c : Char) : ℤ := if c = '(' then 1 else if c = ')' then -1 else 0

/-- How many more brackets a text opens than it closes, when each character adds a step. -/
def level (step : Char → ℤ) (s : List Char) : ℤ := (s.map step).sum

/-- A text that never closes a bracket that it has not opened, and closes all that it opens. -/
structure Nested (step : Char → ℤ) (s : List Char) : Prop where
  nonneg : ∀ front, front <+: s → 0 ≤ level step front
  zero : level step s = 0

section Brackets

variable {step : Char → ℤ} {s t : List Char}

@[simp] theorem level_nil (step : Char → ℤ) : level step [] = 0 := rfl

@[simp] theorem level_append (step : Char → ℤ) (s t : List Char) :
    level step (s ++ t) = level step s + level step t := by
  simp [level]

@[simp] theorem level_singleton (step : Char → ℤ) (c : Char) : level step [c] = step c := by
  simp [level]

theorem level_eq_zero (h : ∀ c ∈ s, step c = 0) : level step s = 0 :=
  List.sum_eq_zero fun n hn => by
    obtain ⟨c, hc, rfl⟩ := List.mem_map.1 hn
    exact h c hc

instance (step : Char → ℤ) (s : List Char) : Decidable (Nested step s) :=
  decidable_of_iff ((∀ front ∈ s.inits, 0 ≤ level step front) ∧ level step s = 0)
    ⟨fun h => ⟨fun front hfront => h.1 front ((List.mem_inits _ _).2 hfront), h.2⟩,
      fun h => ⟨fun front hfront => h.nonneg front ((List.mem_inits _ _).1 hfront), h.zero⟩⟩

/-- A text without brackets. -/
theorem Nested.of_forall (h : ∀ c ∈ s, step c = 0) : Nested step s :=
  ⟨fun _ hfront => (level_eq_zero fun c hc => h c (hfront.subset hc)).ge, level_eq_zero h⟩

theorem Nested.append (hs : Nested step s) (ht : Nested step t) : Nested step (s ++ t) := by
  refine ⟨fun front hfront => ?_, by rw [level_append, hs.zero, ht.zero, add_zero]⟩
  rcases List.prefix_or_prefix_of_prefix hfront (List.prefix_append s t) with hfront' | ⟨u, rfl⟩
  · exact hs.nonneg front hfront'
  · rw [level_append, hs.zero, zero_add]
    exact ht.nonneg u ((List.prefix_append_right_inj s).1 hfront)

end Brackets

/-! ## Scanning past a text -/

/-- The code of a character. -/
def codeOfChar (mode : Mode) (c : Char) : List Char := if mode = .code then [c] else []

theorem codeOf_cons (mode : Mode) (c : Char) (s : List Char) :
    codeOf mode (c :: s) = codeOfChar mode c ++ codeOf (mode.next c) s := rfl

theorem level_codeOfChar (mode : Mode) (c : Char) :
    level parenStep (codeOfChar mode c) = mode.parenStep c ∧
      level bracketStep (codeOfChar mode c) = mode.bracketStep c := by
  unfold codeOfChar Mode.parenStep Mode.bracketStep
  split_ifs <;> simp_all [parenStep]

/-- The parenthesis that closes a call is not in a text that leaves parentheses open. -/
theorem closing?_append_of_le {mode : Mode} {depth : ℤ} {s : List Char}
    (h : ∀ front, front <+: codeOf mode s → 1 ≤ depth + level parenStep front) (t : List Char) :
    closing? mode depth (s ++ t) =
      (closing? (mode.after s) (depth + level parenStep (codeOf mode s)) t).map
        fun r => (s ++ r.1, r.2) := by
  induction s generalizing mode depth with
  | nil => simp [Mode.after, codeOf]
  | cons c s ih =>
    have hopen : ¬(mode = .code ∧ c = ')' ∧ depth = 1) := by
      rintro ⟨rfl, rfl, rfl⟩
      exact absurd (h [')'] ⟨_, (codeOf_code_cons ')' s).symm⟩) (by decide)
    have htail : closing? (mode.next c) (depth + mode.parenStep c) (s ++ t) = _ :=
      ih fun front hfront => by
        have := h _ ((List.prefix_append_right_inj (codeOfChar mode c)).2 hfront)
        rwa [level_append, (level_codeOfChar mode c).1, ← add_assoc] at this
    rw [List.cons_append, closing?, if_neg hopen, htail, codeOf_cons, level_append,
      (level_codeOfChar mode c).1, ← add_assoc, Option.map_map]
    rfl

/-- The first cut of a text is not in a text that has its separators inside brackets. -/
theorem splitFrom_append_of_ne {separator : Char} {mode : Mode} {depth : ℤ} {s : List Char}
    (h : ∀ front, front ++ [separator] <+: codeOf mode s → depth + level bracketStep front ≠ 0)
    {t first : List Char} {rest : List (List Char)}
    (ht : splitFrom separator (mode.after s) (depth + level bracketStep (codeOf mode s)) t =
      first :: rest) : splitFrom separator mode depth (s ++ t) = (s ++ first) :: rest := by
  induction s generalizing mode depth with
  | nil => simpa [Mode.after, codeOf] using ht
  | cons c s ih =>
    have hcut : ¬cuts separator mode depth c = true := by
      intro hcut
      simp only [cuts, Bool.and_eq_true, decide_eq_true_eq] at hcut
      obtain ⟨⟨⟨⟨rfl, rfl⟩, rfl⟩, -⟩, -⟩ := hcut
      exact h [] ⟨_, (codeOf_code_cons c s).symm⟩ rfl
    rw [List.cons_append, splitFrom, if_neg hcut, ih]
    · rfl
    · intro front hfront
      have := h (codeOfChar mode c ++ front) (by
        rw [List.append_assoc]
        exact (List.prefix_append_right_inj (codeOfChar mode c)).2 hfront)
      rwa [level_append, (level_codeOfChar mode c).2, ← add_assoc] at this
    · rw [codeOf_cons, level_append, (level_codeOfChar mode c).2, ← add_assoc] at ht
      exact ht

/-! ## Closed arguments -/

/-- A closed argument: a text without white space at its ends, in which every string is closed, and
outside strings the brackets nest, the parentheses also when they are counted alone, and no comma
stands outside brackets. -/
structure IsClosed (s : List Char) : Prop where
  tight : Tight s
  mode : Mode.after .code s = .code
  parens : Nested parenStep (codeOf .code s)
  brackets : Nested bracketStep (codeOf .code s)
  commas : ∀ front, front ++ [','] <+: codeOf .code s → level bracketStep front ≠ 0

instance (s : List Char) : Decidable (IsClosed s) :=
  decidable_of_iff (Tight s ∧ Mode.after .code s = .code ∧ Nested parenStep (codeOf .code s) ∧
      Nested bracketStep (codeOf .code s) ∧ ∀ front ∈ (codeOf .code s).inits,
        front ++ [','] <+: codeOf .code s → level bracketStep front ≠ 0)
    ⟨fun ⟨h₁, h₂, h₃, h₄, h₅⟩ => ⟨h₁, h₂, h₃, h₄, fun front hfront =>
        h₅ front ((List.mem_inits _ _).2 ((List.prefix_append front _).trans hfront)) hfront⟩,
      fun h => ⟨h.tight, h.mode, h.parens, h.brackets, fun front _ => h.commas front⟩⟩

section Closed

variable {t : List Char} {ts : List (List Char)}

/-- An argument without separators and brackets outside strings is closed. -/
theorem IsArgument.isClosed (h : IsArgument t) : IsClosed t := by
  have hcode : ∀ c ∈ codeOf .code t, c ≠ ',' ∧ bracketStep c = 0 := fun c hc => by
    have := h.scans.code c hc
    simp only [isArgumentCode, Bool.and_eq_true, decide_eq_true_eq] at this
    exact ⟨this.1.1, this.2⟩
  refine ⟨h.tight, h.scans.mode, .of_forall fun c hc => ?_, .of_forall fun c hc => (hcode c hc).2,
    fun front hfront => absurd rfl (hcode ',' (hfront.subset (by simp))).1⟩
  obtain ⟨hopen, hclose⟩ := isArgumentCode_paren (h.scans.code c hc)
  simp [parenStep, hopen, hclose]

/-- Behind a closed argument and a comma a text is cut. -/
theorem IsClosed.splitTopLevel_append (h : IsClosed t) (s : List Char) :
    splitTopLevel ',' (t ++ ',' :: s) = t :: splitTopLevel ',' s := by
  have hcut : splitFrom ',' .code 0 (',' :: s) = [] :: splitTopLevel ',' s := rfl
  have hsplit : splitFrom ',' .code 0 (t ++ ',' :: s) = (t ++ []) :: splitTopLevel ',' s :=
    splitFrom_append_of_ne (by simpa using h.commas)
      (by rw [h.mode, h.brackets.zero, add_zero]; exact hcut)
  rwa [List.append_nil] at hsplit

theorem IsClosed.splitTopLevel_eq (h : IsClosed t) : splitTopLevel ',' t = [t] := by
  have hsplit : splitFrom ',' .code 0 (t ++ []) = [t ++ []] :=
    splitFrom_append_of_ne (by simpa using h.commas) rfl
  rwa [List.append_nil] at hsplit

theorem join_cons_cons (t u : List Char) (ts : List (List Char)) :
    join ", ".toList (t :: u :: ts) = t ++ ',' :: ' ' :: join ", ".toList (u :: ts) := by
  rw [join_cons (by simp), List.append_assoc]
  rfl

/-- The blank behind a comma goes with the argument that follows. -/
theorem splitTopLevel_join (ht : IsClosed t) (hts : ∀ u ∈ ts, IsClosed u) :
    splitTopLevel ',' (join ", ".toList (t :: ts)) = t :: ts.map (' ' :: ·) := by
  induction ts generalizing t with
  | nil => exact ht.splitTopLevel_eq
  | cons u ts ih =>
    obtain ⟨hu, hts⟩ := List.forall_mem_cons.1 hts
    have hblank : ∀ s, splitTopLevel ',' (' ' :: s) = consHead ' ' (splitTopLevel ',' s) :=
      fun s => rfl
    rw [join_cons_cons, ht.splitTopLevel_append, hblank, ih hu hts]
    rfl

/-- Closed arguments, joined by commas, are the arguments. -/
theorem argumentsOf_join (h : ∀ t ∈ ts, IsClosed t) : argumentsOf (join ", ".toList ts) = ts := by
  cases ts with
  | nil => rfl
  | cons t ts =>
    obtain ⟨ht, hts⟩ := List.forall_mem_cons.1 h
    have hblank : isBlankText (join ", ".toList (t :: ts)) = false := by
      cases ts with
      | nil => exact ht.tight.not_isBlankText
      | cons u ts =>
        rw [join_cons_cons, isBlankText_append, ht.tight.not_isBlankText, Bool.false_and]
    have htrim : ∀ u ∈ ts, trim (' ' :: u) = u := fun u hu =>
      (trim_blank_append (b := [' ']) (by decide) u).trans (hts u hu).tight.trim
    rw [argumentsOf, hblank, if_neg (by decide), splitTopLevel_join ht hts, List.map_cons,
      ht.tight.trim, List.map_map]
    exact congrArg (t :: ·) ((List.map_congr_left htrim).trans (List.map_id ts))

/-- Joined closed arguments leave no string open, and no parenthesis. -/
theorem nested_join (h : ∀ t ∈ ts, IsClosed t) : Mode.after .code (join ", ".toList ts) = .code ∧
    Nested parenStep (codeOf .code (join ", ".toList ts)) := by
  induction ts with
  | nil => decide
  | cons t ts ih =>
    obtain ⟨ht, hts⟩ := List.forall_mem_cons.1 h
    obtain ⟨hmode, hnested⟩ := ih hts
    cases ts with
    | nil => exact ⟨ht.mode, ht.parens⟩
    | cons u ts =>
      have hcomma : ∀ s, Mode.after .code (',' :: ' ' :: s) = Mode.after .code s ∧
          codeOf .code (',' :: ' ' :: s) = [',', ' '] ++ codeOf .code s := fun s => ⟨rfl, rfl⟩
      rw [join_cons_cons, Mode.after_append, codeOf_append, ht.mode, (hcomma _).1, (hcomma _).2]
      exact ⟨hmode, ht.parens.append ((Nested.of_forall (by decide)).append hnested)⟩

/-- The arguments of a call with closed arguments, and what follows it. -/
theorem callArguments?_of_isClosed (h : ∀ t ∈ ts, IsClosed t) (rest : List Char) :
    callArguments? ('(' :: (join ", ".toList ts ++ ')' :: rest)) = some (ts, rest) := by
  obtain ⟨hmode, hnested⟩ := nested_join h
  have hopen : ∀ s, closing? .code 0 ('(' :: s) =
      (closing? .code 1 s).map fun r => ('(' :: r.1, r.2) := fun s => rfl
  have hclose : closing? .code 1 (')' :: rest) = some ([], rest) := rfl
  have hinner : closing? .code 1 (join ", ".toList ts ++ ')' :: rest) = _ :=
    closing?_append_of_le
      (fun front hfront => by have := hnested.nonneg front hfront; omega) (')' :: rest)
  rw [hmode, hnested.zero, add_zero, hclose] at hinner
  have harguments : argumentsOf (join ", ".toList ts ++ []) = ts := by
    rw [List.append_nil, argumentsOf_join h]
  rw [callArguments?, hopen, hinner]
  exact congrArg (fun arguments => some (arguments, rest)) harguments

theorem callArguments?_join (h : ∀ t ∈ ts, IsArgument t) (rest : List Char) :
    callArguments? ('(' :: (join ", ".toList ts ++ ')' :: rest)) = some (ts, rest) :=
  callArguments?_of_isClosed (fun t ht => (h t ht).isClosed) rest

end Closed

/-- Closed arguments are read back from a call, wherever it stands in a text and whatever follows
it. A string literal is a closed argument without line breaks, tabs and comments, and its text is
read back. -/
theorem arguments_and_literals_read_back :
    (∀ (front : List Char) (ts : List (List Char)) (rest : List Char), ts ≠ [] →
      (∀ t ∈ ts, IsClosed t) →
      callArguments? ((front ++ '(' :: (join ", ".toList ts ++ ')' :: rest)).drop front.length) =
        some (ts, rest)) ∧
    ∀ s, IsClosed (quote s) ∧ Flat (quote s) ∧ stripComment (quote s) = quote s ∧
      unquote? (quote s) = some s := by
  refine ⟨fun front ts rest _ hts => ?_, fun s => ?_⟩
  · rw [List.drop_left' rfl]
    exact callArguments?_of_isClosed hts rest
  · have h := isArgument_quote s
    exact ⟨h.isClosed, h.flat, stripComment_of_scans h.scans, unquote?_quote s⟩

/-- A call with a table and a string that holds brackets in it, and a string of dashes. -/
def nestedArguments : List (List Char) :=
  ["f(\x7b1, [2]\x7d, \"a,)\\\"(\")".toList, "'--'".toList]

/-- Nested arguments are read back from a condition. -/
theorem arguments_read_back_nestedArguments :
    nestedArguments ≠ [] ∧ (∀ t ∈ nestedArguments, IsClosed t) ∧
    callArguments? (("if g".toList ++
        '(' :: (join ", ".toList nestedArguments ++ ')' :: " then".toList)).drop
      "if g".toList.length) = some (nestedArguments, " then".toList) := by
  have hne : nestedArguments ≠ [] := by decide
  have hclosed : ∀ t ∈ nestedArguments, IsClosed t := by decide +kernel
  exact ⟨hne, hclosed, arguments_and_literals_read_back.1 _ _ _ hne hclosed⟩

end SceneScript.Lua
