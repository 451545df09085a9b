import Mathlib.Data.List.TakeWhile
import SceneScript.Lua.Name
import SceneScript.Text.Match

/-!
# Blanks and words

White space and word characters exclude each other (`isBlank_of_isWord`), and a text is left alone
by trimming as soon as its two ends are not blank (`Tight.trim`). Blanks around a text are trimmed
off whatever they are (`trim_append_blank`, `trim_blank_append`).
-/

namespace SceneScript.Text

theorem all_isBlank_nil : ([] : List Char).all isBlank = true := rfl

/-! ## Characters -/

theorem mem_blanks_of_isBlank {c : Char} (h : isBlank c = true) :
    c.toNat ∈ (blanks.flatMap fun r => List.range' r.1 (r.2 + 1 - r.1)) := by
  obtain ⟨r, hr, hc⟩ := List.any_eq_true.1 h
  simp only [Bool.and_eq_true, decide_eq_true_eq] at hc
  refine List.mem_flatMap.2 ⟨r, hr, List.mem_range'_1.2 ⟨hc.1, ?_⟩⟩
  omega

/-- A word character is no blank. -/
theorem isBlank_of_isWord {c : Char} (h : isWord c = true) : isBlank c = false := by
  by_contra hb
  have hall : ∀ n ∈ (blanks.flatMap fun r => List.range' r.1 (r.2 + 1 - r.1)),
      isWord (Char.ofNat n) = false := by decide +kernel
  have := hall _ (mem_blanks_of_isBlank (by simpa using hb))
  rw [Char.ofNat_toNat, h] at this
  exact Bool.noConfusion this

theorem isWord_of_isAlphanum {c : Char} (h : c.isAlphanum = true) : isWord c = true := by
  have hupper (h : c.isUpper = true) : c.toNat ≤ 'Z'.toNat := (of_decide_eq_true h).2
  have hlower (h : c.isLower = true) : c.toNat ≤ 'z'.toNat :=
    of_decide_eq_true (Bool.and_eq_true_iff.1 h).2
  have hdigit (h : c.isDigit = true) : c.toNat ≤ '9'.toNat :=
    of_decide_eq_true (Bool.and_eq_true_iff.1 h).2
  have hlt : c.toNat < 0x80 := by
    rcases Bool.or_eq_true_iff.1 h with h | h
    · rcases Bool.or_eq_true_iff.1 h with h | h
      · exact (hupper h).trans_lt (by decide)
      · exact (hlower h).trans_lt (by decide)
    · exact (hdigit h).trans_lt (by decide)
  simp [isWord, hlt, h]

theorem isWord_of_isIdentifierStart {c : Char} (h : isIdentifierStart c = true) :
    isWord c = true := by
  rcases Bool.or_eq_true_iff.1 h with h | h
  · exact isWord_of_isAlphanum (by simp [Char.isAlphanum, h])
  · rw [eq_of_beq h]
    decide

/-! ## Flat texts -/

/-- A text without line breaks and tabs. -/
def Flat (s : List Char) : Prop := ∀ c ∈ s, c ≠ '\n' ∧ c ≠ '\r' ∧ c ≠ '\t'

theorem flat_of_not_isBlank {s : List Char} (h : ∀ c ∈ s, isBlank c = false) : Flat s := by
  intro c hc
  have hb := h c hc
  refine ⟨?_, ?_, ?_⟩ <;>
  · rintro rfl
    exact absurd hb (by decide)

theorem flat_append {s t : List Char} : Flat (s ++ t) ↔ Flat s ∧ Flat t := List.forall_mem_append

theorem Flat.append {s t : List Char} (hs : Flat s) (ht : Flat t) : Flat (s ++ t) :=
  flat_append.2 ⟨hs, ht⟩

theorem Flat.lineFeed {s : List Char} (h : Flat s) : '\n' ∉ s := fun hc => (h _ hc).1 rfl

theorem Flat.carriageReturn {s : List Char} (h : Flat s) : '\r' ∉ s := fun hc => (h _ hc).2.1 rfl

theorem Flat.tab {s : List Char} (h : Flat s) : '\t' ∉ s := fun hc => (h _ hc).2.2 rfl

/-- Five texts in a row. -/
theorem append_five (a b c d e : List Char) :
    a ++ b ++ c ++ d ++ e = a ++ (b ++ (c ++ (d ++ e))) := by
  simp only [List.append_assoc]

/-! ## Trimming -/

theorem trimLeft_cons {c : Char} (h : isBlank c = false) (s : List Char) :
    trimLeft (c :: s) = c :: s := by
  simp [trimLeft, h]

theorem trimLeft_append {s : List Char} (h : ∃ c ∈ s.head?, isBlank c = false) (t : List Char) :
    trimLeft (s ++ t) = s ++ t := by
  obtain ⟨c, hc, hb⟩ := h
  cases s with
  | nil => simp at hc
  | cons d s =>
    obtain rfl : d = c := by simpa using hc
    exact trimLeft_cons hb (s ++ t)

theorem trimLeft_blank_append {b : List Char} (h : b.all isBlank = true) (s : List Char) :
    trimLeft (b ++ s) = trimLeft s := by
  induction b with
  | nil => rfl
  | cons c b ih =>
    obtain ⟨hc, hb⟩ := Bool.and_eq_true_iff.1 h
    simpa [trimLeft, hc] using ih hb

theorem trimRight_append_blank {b : List Char} (h : b.all isBlank = true) (s : List Char) :
    trimRight (s ++ b) = trimRight s := by
  have hr : b.reverse.all isBlank = true := by simpa using h
  have := trimLeft_blank_append hr s.reverse
  simp only [trimRight, List.reverse_append]
  exact congrArg List.reverse this

theorem trimRight_of_getLast? {s : List Char} (h : ∃ c ∈ s.getLast?, isBlank c = false) :
    trimRight s = s := by
  have hh : ∃ c ∈ s.reverse.head?, isBlank c = false := by simpa using h
  have := trimLeft_append hh []
  simp only [List.append_nil] at this
  rw [trimRight]
  exact (congrArg List.reverse this).trans (List.reverse_reverse s)

theorem head_append {s : List Char} (h : ∃ c ∈ s.head?, isBlank c = false) (t : List Char) :
    ∃ c ∈ (s ++ t).head?, isBlank c = false := by
  obtain ⟨c, hc, hb⟩ := h
  have hc : s.head? = some c := hc
  exact ⟨c, by simp [List.head?_append, hc], hb⟩

theorem last_append {t : List Char} (h : ∃ c ∈ t.getLast?, isBlank c = false) (s : List Char) :
    ∃ c ∈ (s ++ t).getLast?, isBlank c = false := by
  obtain ⟨c, hc, hb⟩ := h
  have hc : t.getLast? = some c := hc
  exact ⟨c, by simp [List.getLast?_append, hc], hb⟩

/-- A text that neither starts nor ends with a blank, and is not empty. -/
structure Tight (s : List Char) : Prop where
  head : ∃ c ∈ s.head?, isBlank c = false
  last : ∃ c ∈ s.getLast?, isBlank c = false

instance (s : List Char) : Decidable (Tight s) :=
  decidable_of_iff (s.head?.any (!isBlank ·) = true ∧ s.getLast?.any (!isBlank ·) = true) <| by
    simp only [Option.any_eq_true, Bool.not_eq_true']
    exact ⟨fun h => ⟨h.1, h.2⟩, fun h => ⟨h.head, h.last⟩⟩

theorem Tight.ne_nil {s : List Char} (h : Tight s) : s ≠ [] := by
  obtain ⟨c, hc, -⟩ := h.head
  rintro rfl
  simp at hc

/-- Only the two ends matter. -/
theorem Tight.append_append {s t : List Char} (hs : Tight s) (ht : Tight t) (m : List Char) :
    Tight (s ++ (m ++ t)) :=
  ⟨head_append hs.head _, last_append (last_append ht.last m) s⟩

theorem Tight.append {s t : List Char} (hs : Tight s) (ht : Tight t) : Tight (s ++ t) :=
  hs.append_append ht []

theorem Tight.of_forall {s : List Char} (hne : s ≠ []) (h : ∀ c ∈ s, isBlank c = false) :
    Tight s := by
  refine ⟨⟨s.head hne, ?_, h _ (List.head_mem hne)⟩,
    ⟨s.getLast hne, ?_, h _ (List.getLast_mem hne)⟩⟩
  · simp [List.head?_eq_some_head hne]
  · simp [List.getLast?_eq_some_getLast hne]

/-- A text between two characters that are no blanks. -/
theorem Tight.mk' {a b : Char} (ha : isBlank a = false) (hb : isBlank b = false) (s : List Char) :
    Tight (a :: s ++ [b]) :=
  ⟨⟨a, by simp, ha⟩, ⟨b, by rw [List.getLast?_append]; rfl, hb⟩⟩

theorem Tight.trim {s : List Char} (h : Tight s) : trim s = s := by
  have hl := trimLeft_append h.head []
  simp only [List.append_nil] at hl
  rw [Text.trim, hl, trimRight_of_getLast? h.last]

/-- Behind a text that does not end in a blank, trimming is left to what follows. -/
theorem Tight.trim_append {s : List Char} (h : Tight s) (t : List Char) :
    Text.trim (s ++ t) = s ++ trimRight t := by
  have hs : s.reverse.dropWhile isBlank = s.reverse := by
    rw [← List.reverse_inj, List.reverse_reverse]
    exact trimRight_of_getLast? h.last
  rw [Text.trim, trimLeft_append h.head, trimRight, trimRight, List.reverse_append,
    List.dropWhile_append, hs]
  split
  · next hempty =>
    rw [List.isEmpty_iff.1 hempty, List.reverse_reverse, List.reverse_nil, List.append_nil]
  · rw [List.reverse_append, List.reverse_reverse]

theorem trim_blank_append {b : List Char} (h : b.all isBlank = true) (s : List Char) :
    trim (b ++ s) = trim s := by
  rw [trim, trimLeft_blank_append h, trim]

theorem trimLeft_eq_nil {s : List Char} : trimLeft s = [] ↔ s.all isBlank = true := by
  rw [trimLeft, List.dropWhile_eq_nil_iff, List.all_eq_true]

/-- Trimming leaves nothing of a blank text alone. -/
theorem trim_eq_nil {s : List Char} : trim s = [] ↔ isBlankText s = true := by
  constructor
  · intro h
    have hright : ∀ c ∈ trimLeft s, isBlank c = true := by
      simpa [trim, trimRight] using h
    rw [isBlankText, ← indentOf_append s, List.all_append, Bool.and_eq_true]
    exact ⟨by simp [indentOf], List.all_eq_true.2 hright⟩
  · intro h
    rw [trim, trimLeft_eq_nil.2 h]
    rfl

theorem trim_append_blank {b : List Char} (h : b.all isBlank = true) (s : List Char) :
    trim (s ++ b) = trim s := by
  by_cases hs : s.all isBlank = true
  · have hsb : (s ++ b).all isBlank = true := by simp [List.all_append, hs, h]
    rw [trim, trim, trimLeft_eq_nil.2 hs, trimLeft_eq_nil.2 hsb]
  · have hne : trimLeft s ≠ [] := fun he => hs (trimLeft_eq_nil.1 he)
    have : trimLeft (s ++ b) = trimLeft s ++ b := by
      rw [show s ++ b = indentOf s ++ (trimLeft s ++ b) by
        rw [← List.append_assoc, indentOf_append]]
      rw [trimLeft_blank_append (by simp [indentOf])]
      refine trimLeft_append ⟨(trimLeft s).head hne, ?_, ?_⟩ b
      · simp [List.head?_eq_some_head hne]
      · simpa [trimLeft] using List.head_dropWhile_not isBlank hne
    rw [trim, this, trimRight_append_blank h, trim]

/-- A text is what trimming leaves of it, between blanks. -/
theorem exists_eq_trim (s : List Char) : ∃ front back : List Char,
    s = front ++ trim s ++ back ∧ front.all isBlank = true ∧ back.all isBlank = true := by
  refine ⟨indentOf s, ((trimLeft s).reverse.takeWhile isBlank).reverse, ?_, ?_, ?_⟩
  · rw [trim, trimRight, List.append_assoc, ← List.reverse_append, List.takeWhile_append_dropWhile,
      List.reverse_reverse, indentOf_append]
  · simp [indentOf]
  · simp

theorem isInfix_trim (s : List Char) : trim s <:+: s := by
  obtain ⟨front, back, hs, -, -⟩ := exists_eq_trim s
  exact ⟨front, back, hs.symm⟩

theorem trim_trim (s : List Char) : trim (trim s) = trim s := by
  obtain ⟨front, back, hs, hfront, hback⟩ := exists_eq_trim s
  calc trim (trim s) = trim (front ++ trim s ++ back) := by
        rw [trim_append_blank hback, trim_blank_append hfront]
    _ = trim s := by rw [← hs]

/-- What trimming leaves of a text that is not blank has no white space at its ends. -/
theorem tight_trim {s : List Char} (h : trim s ≠ []) : Tight (trim s) := by
  have hhead : ∀ {t : List Char}, trimLeft t ≠ [] → ∃ c ∈ (trimLeft t).head?, isBlank c = false :=
    fun hne => ⟨_, List.head?_eq_some_head hne,
      by simpa [trimLeft] using List.head_dropWhile_not isBlank hne⟩
  refine ⟨?_, ?_⟩
  · have hback : trimLeft s = trim s ++ ((trimLeft s).reverse.takeWhile isBlank).reverse := by
      rw [trim, trimRight, ← List.reverse_append, List.takeWhile_append_dropWhile,
        List.reverse_reverse]
    obtain ⟨c, rest, hcons⟩ := List.exists_cons_of_ne_nil h
    rw [hcons] at hback ⊢
    have := hhead (t := s) (by rw [hback]; simp)
    rwa [hback] at this
  · have hne : trimLeft (trimLeft s).reverse ≠ [] := by
      rw [trim, trimRight, ne_eq, List.reverse_eq_nil_iff] at h
      exact h
    rw [trim, trimRight, List.getLast?_reverse]
    exact hhead hne
theorem isBlankText_append (s t : List Char) :
    isBlankText (s ++ t) = (isBlankText s && isBlankText t) := by
  simp [isBlankText]

theorem Tight.not_isBlankText {s : List Char} (h : Tight s) : isBlankText s = false := by
  obtain ⟨c, hc, hb⟩ := h.head
  refine Bool.eq_false_iff.2 fun hall => ?_
  have := List.all_eq_true.1 hall c (List.mem_of_mem_head? hc)
  simp [hb] at this

end SceneScript.Text
