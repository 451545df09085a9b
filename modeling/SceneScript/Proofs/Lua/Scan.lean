import Mathlib.Data.List.Chain
import SceneScript.Lua.StringLiteral
import SceneScript.Proofs.Text.Blank

/-!
# Texts that scan as one piece

The scanners look at a character only where they stand in code, so everything they do to a text is
decided by its code characters (`codeOf`). `Scans p s` says that a text returns to code, that its
code characters all pass the test `p`, and that no comment starts in it or where it is put in front
of a text. Such texts are closed under appending, and a string literal is one with a single code
character whatever it holds (`Scans.quote`).

Main statements, for a text that scans:

* `stripComment_of_scans`: it has no comment.
* `splitTopLevel_of_scans`: it is one part, when the separator is no code character of it.
* `IsStatement.statements_eq`: between blanks it is the one statement of its line.
-/

namespace SceneScript.Lua

/-! ## Code characters -/

/-- Where a scanner stands after a text. -/
def Mode.after (mode : Mode) (s : List Char) : Mode := s.foldl Mode.next mode

/-- The characters of a text that a scanner meets in code. -/
def codeOf : Mode → List Char → List Char
  | _, [] => []
  | mode, c :: s => (if mode = .code then [c] else []) ++ codeOf (mode.next c) s

theorem Mode.after_append (mode : Mode) (s t : List Char) :
    mode.after (s ++ t) = (mode.after s).after t := List.foldl_append

theorem codeOf_append (mode : Mode) (s t : List Char) :
    codeOf mode (s ++ t) = codeOf mode s ++ codeOf (mode.after s) t := by
  induction s generalizing mode with
  | nil => rfl
  | cons c s ih => rw [List.cons_append, codeOf, codeOf, ih, List.append_assoc]; rfl

theorem codeOf_code_cons (c : Char) (s : List Char) :
    codeOf .code (c :: s) = c :: codeOf (Mode.next .code c) s := by
  simp [codeOf]

theorem next_code_of_not_isQuote {c : Char} (h : isQuote c = false) :
    Mode.next .code c = .code := by
  simp [Mode.next, h]

/-- Without quotes every character is a code character. -/
theorem codeOf_of_not_isQuote {s : List Char} (h : ∀ c ∈ s, isQuote c = false) :
    codeOf .code s = s ∧ Mode.after .code s = .code := by
  induction s with
  | nil => exact ⟨rfl, rfl⟩
  | cons c s ih =>
    have hc := next_code_of_not_isQuote (h c List.mem_cons_self)
    obtain ⟨h₁, h₂⟩ := ih fun d hd => h d (List.mem_cons_of_mem _ hd)
    refine ⟨?_, ?_⟩
    · rw [codeOf_code_cons, hc, h₁]
    · rw [Mode.after, List.foldl_cons, hc]
      exact h₂

/-! ## Scanning texts -/

/-- Two characters that start a comment. -/
def IsDashes (a b : Char) : Prop := a = '-' ∧ b = '-'

/-- A text that returns to code, whose code characters pass a test, and in which no comment starts,
nor with a character that follows. -/
structure Scans (p : Char → Bool) (s : List Char) : Prop where
  mode : Mode.after .code s = .code
  code : ∀ c ∈ codeOf .code s, p c = true
  dashes : (codeOf .code s).IsChain (fun a b => ¬IsDashes a b)
  last : (codeOf .code s).getLast? ≠ some '-'

namespace Scans

variable {p q : Char → Bool} {s t : List Char}

theorem nil : Scans p [] := ⟨rfl, by simp [codeOf], by simp [codeOf], by simp [codeOf]⟩

theorem mono (h : Scans p s) (hpq : ∀ c, p c = true → q c = true) : Scans q s :=
  ⟨h.mode, fun c hc => hpq c (h.code c hc), h.dashes, h.last⟩

theorem append (hs : Scans p s) (ht : Scans p t) : Scans p (s ++ t) := by
  have hcode : codeOf .code (s ++ t) = codeOf .code s ++ codeOf .code t := by
    rw [codeOf_append, hs.mode]
  refine ⟨by rw [Mode.after_append, hs.mode, ht.mode], ?_, ?_, ?_⟩
  · rw [hcode]
    exact fun c hc => (List.mem_append.1 hc).elim (hs.code c) (ht.code c)
  · rw [hcode, List.isChain_append]
    refine ⟨hs.dashes, ht.dashes, ?_⟩
    rintro a ha b - ⟨rfl, -⟩
    exact hs.last ha
  · rw [hcode, List.getLast?_append]
    cases hlast : (codeOf .code t).getLast? with
    | none => simpa using hs.last
    | some c => simpa [hlast] using ht.last

/-- A text without quotes and dashes. -/
theorem of_plain (h : ∀ c ∈ s, p c = true ∧ isQuote c = false ∧ c ≠ '-') : Scans p s := by
  obtain ⟨hcode, hmode⟩ := codeOf_of_not_isQuote fun c hc => (h c hc).2.1
  refine ⟨hmode, ?_, ?_, ?_⟩
  · rw [hcode]
    exact fun c hc => (h c hc).1
  · rw [hcode]
    refine List.Pairwise.isChain (List.pairwise_of_forall_mem_list ?_)
    rintro a ha b - ⟨rfl, -⟩
    exact (h _ ha).2.2 rfl
  · rw [hcode]
    exact fun hlast => (h _ (List.mem_of_getLast? hlast)).2.2 rfl

/-- A dash before a text that starts with something else. -/
theorem cons_dash (hs : Scans p s) (hp : p '-' = true) {c : Char} {rest : List Char}
    (he : s = c :: rest) (hc : c ≠ '-') : Scans p ('-' :: s) := by
  have hcode : codeOf .code ('-' :: s) = '-' :: codeOf .code s := by
    rw [codeOf_code_cons, next_code_of_not_isQuote (by decide)]
  have hcons : codeOf .code s = c :: codeOf (Mode.next .code c) rest := by
    rw [he, codeOf_code_cons]
  refine ⟨hs.mode, ?_, ?_, ?_⟩
  · rw [hcode]
    exact fun d hd => (List.mem_cons.1 hd).elim (fun h => h ▸ hp) (hs.code d)
  · rw [hcode, hcons, List.isChain_cons_cons]
    exact ⟨fun h => hc h.2, hcons ▸ hs.dashes⟩
  · have hlast := hs.last
    rw [hcons] at hlast
    rw [hcode, hcons, List.getLast?_cons_cons]
    exact hlast

theorem cons (hs : Scans p s) {c : Char} (hp : p c = true) (hq : isQuote c = false)
    (hc : c ≠ '-') : Scans p (c :: s) :=
  append (of_plain (s := [c]) (by simp [hp, hq, hc])) hs

/-- A string literal has one code character, its opening quote. -/
theorem quote (hp : p '\x22' = true) (s : List Char) : Scans p (Lua.quote s) := by
  have hinside : ∀ s : List Char,
      Mode.after (.inside '\x22') (s.flatMap quoteChar) = .inside '\x22' ∧
        codeOf (.inside '\x22') (s.flatMap quoteChar) = [] := by
    intro s
    induction s with
    | nil => exact ⟨rfl, rfl⟩
    | cons c s ih =>
      have hc : Mode.after (.inside '\x22') (quoteChar c) = .inside '\x22' ∧
          codeOf (.inside '\x22') (quoteChar c) = [] := by
        unfold quoteChar
        split_ifs with h₁ h₂ h₃ h₄
        · simp [Mode.after, Mode.next, codeOf]
        · simp [Mode.after, Mode.next, codeOf]
        · simp [Mode.after, Mode.next, codeOf]
        · simp [Mode.after, Mode.next, codeOf]
        · simp only [Bool.or_eq_true, decide_eq_true_eq, not_or] at h₁
          simp [Mode.after, Mode.next, codeOf, h₁]
      rw [List.flatMap_cons, Mode.after_append, codeOf_append, hc.1, hc.2]
      exact ih
  have hopen : Mode.next .code '\x22' = .inside '\x22' := by decide
  have hcode : codeOf .code (Lua.quote s) = ['\x22'] := by
    rw [Lua.quote, List.cons_append, codeOf_code_cons, hopen, codeOf_append, (hinside s).1,
      (hinside s).2]
    simp [codeOf]
  refine ⟨?_, ?_, ?_, ?_⟩
  · rw [Lua.quote, List.cons_append, Mode.after, List.foldl_cons, hopen, ← Mode.after,
      Mode.after_append, (hinside s).1]
    rfl
  · simp [hcode, hp]
  · simp [hcode]
  · simp [hcode]

end Scans

/-! ## Comments -/

theorem stripCommentFrom_eq {mode : Mode} {s : List Char}
    (h : (codeOf mode s).IsChain (fun a b => ¬IsDashes a b)) : stripCommentFrom mode s = s := by
  induction s generalizing mode with
  | nil => rfl
  | cons c s ih =>
    have htail : (codeOf (mode.next c) s).IsChain (fun a b => ¬IsDashes a b) := by
      rw [codeOf, List.isChain_append] at h
      exact h.2.1
    rw [stripCommentFrom, if_neg, ih htail]
    rintro ⟨rfl, rfl, hs⟩
    cases s with
    | nil => simp at hs
    | cons d s =>
      obtain rfl : d = '-' := by simpa using hs
      rw [codeOf_code_cons, next_code_of_not_isQuote (by decide), codeOf_code_cons,
        List.isChain_cons_cons] at h
      exact h.1 ⟨rfl, rfl⟩

variable {p : Char → Bool} {s : List Char}

theorem stripComment_of_scans (h : Scans p s) : stripComment s = s := stripCommentFrom_eq h.dashes

/-! ## Splitting -/

theorem splitFrom_of_notMem {separator : Char} {mode : Mode} {depth : Int}
    (h : separator ∉ codeOf mode s) : splitFrom separator mode depth s = [s] := by
  induction s generalizing mode depth with
  | nil => rfl
  | cons c s ih =>
    rw [codeOf, List.mem_append, not_or] at h
    rw [splitFrom, if_neg, ih h.2]
    · rfl
    · intro hcut
      simp only [cuts, Bool.and_eq_true, decide_eq_true_eq] at hcut
      obtain ⟨⟨⟨⟨rfl, rfl⟩, -⟩, -⟩, -⟩ := hcut
      simp at h

theorem splitTopLevel_of_scans {separator : Char} (h : Scans p s) (hp : p separator = false) :
    splitTopLevel separator s = [s] :=
  splitFrom_of_notMem fun hm => by simp [h.code _ hm] at hp

/-! ## Arguments -/

/-- A character that may be a code character of an argument: no separator and no bracket. -/
def isArgumentCode (c : Char) : Bool := c ≠ ',' && c ≠ ';' && bracketStep c = 0

theorem isArgumentCode_paren {c : Char} (h : isArgumentCode c = true) : c ≠ '(' ∧ c ≠ ')' := by
  constructor <;>
  · rintro rfl
    exact absurd h (by decide)

/-- A character that may be a code character inside the parentheses of a call. -/
def isInnerCode (c : Char) : Bool := isArgumentCode c || c = ','

/-- An argument: a text that scans without separators and brackets, is not blank at its ends, and
stays on its line. -/
structure IsArgument (s : List Char) : Prop where
  scans : Scans isArgumentCode s
  tight : Text.Tight s
  flat : Text.Flat s

theorem flat_quoteChar (c : Char) : Text.Flat (quoteChar c) := by
  unfold quoteChar
  split_ifs with h₁ h₂ h₃ h₄
  · simp only [Bool.or_eq_true, decide_eq_true_eq] at h₁
    rcases h₁ with rfl | rfl <;>
    · unfold Text.Flat
      decide
  · unfold Text.Flat
    decide
  · unfold Text.Flat
    decide
  · unfold Text.Flat
    decide
  · intro d hd
    rw [List.mem_singleton.1 hd]
    exact ⟨h₂, h₃, h₄⟩

/-- A string literal is an argument on its own. -/
theorem isArgument_quote (s : List Char) : IsArgument (quote s) := by
  have hquote : Text.isBlank '\x22' = false := by decide
  refine ⟨.quote (by decide) s, Text.Tight.mk' hquote hquote _, ?_⟩
  intro c hc
  rw [quote, List.cons_append, List.mem_cons, List.mem_append, List.mem_singleton] at hc
  rcases hc with rfl | hc | rfl
  · decide
  · obtain ⟨d, -, hd⟩ := List.mem_flatMap.1 hc
    exact flat_quoteChar d c hd
  · decide

theorem scans_join {ts : List (List Char)} (h : ∀ t ∈ ts, IsArgument t) :
    Scans isInnerCode (Text.join ", ".toList ts) := by
  have hmono : ∀ c, isArgumentCode c = true → isInnerCode c = true := fun c hc => by
    simp [isInnerCode, hc]
  induction ts with
  | nil => exact .nil
  | cons t ts ih =>
    have ht := (h t List.mem_cons_self).scans.mono hmono
    have hts := ih fun u hu => h u (List.mem_cons_of_mem _ hu)
    by_cases hne : ts = []
    · subst hne
      exact ht
    · rw [Text.join_cons hne, List.append_assoc]
      exact ht.append ((hts.cons (c := ' ') (by decide) (by decide) (by decide)).cons
        (c := ',') (by decide) (by decide) (by decide))

theorem flat_join {ts : List (List Char)} (h : ∀ t ∈ ts, IsArgument t) :
    Text.Flat (Text.join ", ".toList ts) := by
  induction ts with
  | nil => exact fun c hc => absurd hc (by simp [Text.join])
  | cons t ts ih =>
    have ht := (h t List.mem_cons_self).flat
    have hts := ih fun u hu => h u (List.mem_cons_of_mem _ hu)
    have hcomma : Text.Flat ", ".toList := by
      unfold Text.Flat
      decide
    by_cases hne : ts = []
    · subst hne
      exact ht
    · rw [Text.join_cons hne, Text.flat_append, Text.flat_append]
      exact ⟨⟨ht, hcomma⟩, hts⟩

/-! ## Statements -/

/-- A character that may be a code character of a statement. -/
def isStatementCode (c : Char) : Bool := c ≠ ';'

theorem code_of_isBlank {c : Char} (h : Text.isBlank c = true) :
    c ≠ ';' ∧ isQuote c = false ∧ c ≠ '-' := by
  refine ⟨?_, ?_, ?_⟩
  · rintro rfl
    exact absurd h (by decide)
  · by_contra hq
    rcases Bool.or_eq_true_iff.1 (Bool.of_not_eq_false hq) with hq | hq
    all_goals
      rw [of_decide_eq_true hq] at h
      exact absurd h (by decide)
  · rintro rfl
    exact absurd h (by decide)

theorem scans_of_blank {b : List Char} (h : b.all Text.isBlank = true) :
    Scans isStatementCode b := by
  refine Scans.of_plain fun c hc => ?_
  obtain ⟨h₁, h₂, h₃⟩ := code_of_isBlank (List.all_eq_true.1 h c hc)
  exact ⟨decide_eq_true h₁, h₂, h₃⟩

theorem replaceChar_of_notMem {c : Char} (by_ : List Char) (h : c ∉ s) :
    Text.replaceChar c by_ s = s := by
  induction s with
  | nil => rfl
  | cons d s ih =>
    rw [List.mem_cons, not_or] at h
    rw [Text.replaceChar, List.flatMap_cons, if_neg (Ne.symm h.1), ← Text.replaceChar, ih h.2]
    rfl

theorem replaceChar_blank {b : List Char} (hb : b.all Text.isBlank = true) (c : Char)
    (by_ : List Char) (hby : by_.all Text.isBlank = true) :
    (Text.replaceChar c by_ b).all Text.isBlank = true := by
  rw [List.all_eq_true] at hb hby ⊢
  intro d hd
  obtain ⟨e, he, hd⟩ := List.mem_flatMap.1 hd
  split_ifs at hd
  · exact hby d hd
  · rw [List.mem_singleton.1 hd]
    exact hb e he

/-- A statement: a text that scans without semicolons, is not blank at its ends, and stays on its
line. -/
structure IsStatement (s : List Char) : Prop where
  scans : Scans isStatementCode s
  tight : Text.Tight s
  flat : Text.Flat s

/-- A statement is the one statement of a line, whatever the blanks around it. -/
theorem IsStatement.statements_eq (h : IsStatement s) {front back : List Char}
    (hfront : front.all Text.isBlank = true) (hback : back.all Text.isBlank = true) :
    statements (front ++ s ++ back) = [s] := by
  have hf := replaceChar_blank hfront '\t' "    ".toList (by decide)
  have hb := replaceChar_blank hback '\t' "    ".toList (by decide)
  have htext : Text.replaceChar '\t' "    ".toList (front ++ s ++ back) =
      Text.replaceChar '\t' "    ".toList front ++ s ++
        Text.replaceChar '\t' "    ".toList back := by
    conv_rhs => rw [← replaceChar_of_notMem "    ".toList h.flat.tab]
    simp only [Text.replaceChar, List.flatMap_append]
  generalize Text.replaceChar '\t' "    ".toList front = f at hf htext
  generalize Text.replaceChar '\t' "    ".toList back = b at hb htext
  have hscans : Scans isStatementCode (f ++ s ++ b) :=
    ((scans_of_blank hf).append h.scans).append (scans_of_blank hb)
  have htrim : Text.trim (f ++ s ++ b) = s := by
    rw [Text.trim_append_blank hb, Text.trim_blank_append hf, h.tight.trim]
  have hempty : s.isEmpty = false := by simpa using h.tight.ne_nil
  rw [statements, htext, stripComment_of_scans hscans, splitTopLevel_of_scans hscans (by decide)]
  rw [List.map_singleton, htrim, List.filter_cons_of_pos (by simp [hempty]), List.filter_nil]

theorem parts_of_blank {b : List Char} (h : b.all Text.isBlank = true) :
    ((splitTopLevel ';' b).map Text.trim).filter (fun s => !s.isEmpty) = [] := by
  have htrim : Text.trim b = [] := Text.trim_append_blank h []
  rw [splitTopLevel_of_scans (scans_of_blank h) (by decide), List.map_singleton, htrim]
  rfl

/-- A line with nothing but blanks has no statement. -/
theorem statements_of_blank {b : List Char} (h : b.all Text.isBlank = true) :
    statements b = [] := by
  have hb := replaceChar_blank h '\t' "    ".toList (by decide)
  rw [statements, stripComment_of_scans (scans_of_blank hb), parts_of_blank hb]

theorem stripComment_comment {b : List Char} (h : b.all Text.isBlank = true) (rest : List Char) :
    stripComment (b ++ '-' :: '-' :: rest) = b := by
  induction b with
  | nil => simp [stripComment, stripCommentFrom]
  | cons c b ih =>
    rw [List.all_cons, Bool.and_eq_true] at h
    obtain ⟨-, hq, hc⟩ := code_of_isBlank h.1
    rw [stripComment, List.cons_append, stripCommentFrom, if_neg (fun hd => hc hd.2.1),
      next_code_of_not_isQuote hq]
    exact congrArg (c :: ·) (ih h.2)

/-- A comment has no statement. -/
theorem statements_comment {front : List Char} (h : front.all Text.isBlank = true)
    (rest : List Char) : statements (front ++ '-' :: '-' :: rest) = [] := by
  have hf := replaceChar_blank h '\t' "    ".toList (by decide)
  have htext : Text.replaceChar '\t' "    ".toList (front ++ '-' :: '-' :: rest) =
      Text.replaceChar '\t' "    ".toList front ++
        '-' :: '-' :: Text.replaceChar '\t' "    ".toList rest := by
    simp [Text.replaceChar]
  rw [statements, htext, stripComment_comment hf, parts_of_blank hf]

end SceneScript.Lua
