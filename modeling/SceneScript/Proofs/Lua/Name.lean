import SceneScript.Element.Basic
import SceneScript.Proofs.Lua.Scan
import SceneScript.Script.Shape

/-!
# Names are read as long as they go

An identifier or a callee in front of a character that cannot go on with it is read to its end
(`takeIdentifier?_append`, `takeCallee?_append`). The characters of a name are no blanks, quotes,
brackets or separators, so a name is an argument on its own (`isArgument_of_name`).

The names that scripts make up are identifiers: the handler derived from the name of an element
(`isIdentifier_derivedName`) and the variable of a slider that names none
(`isIdentifier_sliderVariable`).
-/

namespace SceneScript.Lua

/-! ## The characters of names -/

/-- A character of a callee: a word character, a point or a colon. -/
def isNameChar (c : Char) : Bool := Text.isWord c || c = '.' || c = ':'

theorem isNameChar_of_isWord {c : Char} (h : Text.isWord c = true) : isNameChar c = true := by
  simp [isNameChar, h]

theorem ne_of_isNameChar {c d : Char} (hc : isNameChar c = true) (hd : isNameChar d = false) :
    c ≠ d := by
  rintro rfl
  rw [hc] at hd
  exact Bool.noConfusion hd

theorem isBlank_of_isNameChar {c : Char} (h : isNameChar c = true) : Text.isBlank c = false := by
  simp only [isNameChar, Bool.or_eq_true, decide_eq_true_eq] at h
  rcases h with (h | rfl) | rfl
  · exact Text.isBlank_of_isWord h
  · decide
  · decide

theorem isNameChar_of_isBlank {c : Char} (h : Text.isBlank c = true) : isNameChar c = false := by
  by_contra hc
  rw [isBlank_of_isNameChar (by simpa using hc)] at h
  cases h

theorem isArgumentCode_of_isNameChar {c : Char} (h : isNameChar c = true) :
    isArgumentCode c = true ∧ isQuote c = false ∧ c ≠ '-' := by
  have hne : ∀ d, isNameChar d = false → c ≠ d := fun d hd => ne_of_isNameChar h hd
  refine ⟨?_, ?_, hne '-' (by decide)⟩
  · simp [isArgumentCode, bracketStep, hne ',' (by decide), hne ';' (by decide),
      hne '(' (by decide), hne ')' (by decide), hne '[' (by decide), hne ']' (by decide),
      hne '\x7b' (by decide), hne '\x7d' (by decide)]
  · simp [isQuote, hne '\x22' (by decide), hne '\x27' (by decide)]

theorem scans_of_name {s : List Char} (h : ∀ c ∈ s, isNameChar c = true) :
    Scans isArgumentCode s :=
  Scans.of_plain fun c hc => isArgumentCode_of_isNameChar (h c hc)

theorem tight_of_name {s : List Char} (hne : s ≠ []) (h : ∀ c ∈ s, isNameChar c = true) :
    Text.Tight s :=
  Text.Tight.of_forall hne fun c hc => isBlank_of_isNameChar (h c hc)

/-- A name is an argument on its own. -/
theorem isArgument_of_name {s : List Char} (hne : s ≠ []) (h : ∀ c ∈ s, isNameChar c = true) :
    IsArgument s :=
  ⟨scans_of_name h, tight_of_name hne h,
    Text.flat_of_not_isBlank fun c hc => isBlank_of_isNameChar (h c hc)⟩

theorem forall_head_cons {p : Char → Bool} {c : Char} (h : p c = false) {s : List Char} :
    ∀ d ∈ (c :: s).head?, p d = false := fun d hd => by
  obtain rfl : c = d := Option.some.inj hd
  exact h

/-! ## Identifiers -/

theorem isWord_of_isIdentifier {s : List Char} (h : isIdentifier s = true) :
    s ≠ [] ∧ ∀ c ∈ s, Text.isWord c = true := by
  cases s with
  | nil => simp [isIdentifier] at h
  | cons c s =>
    simp only [isIdentifier, Bool.and_eq_true] at h
    refine ⟨by simp, fun d hd => ?_⟩
    rcases List.mem_cons.1 hd with rfl | hd
    · exact Text.isWord_of_isIdentifierStart h.1
    · exact List.all_eq_true.1 h.2 d hd

theorem isNameChar_of_isIdentifier {s : List Char} (h : isIdentifier s = true) :
    ∀ c ∈ s, isNameChar c = true := fun c hc =>
  isNameChar_of_isWord ((isWord_of_isIdentifier h).2 c hc)

/-- An identifier is read to its end. -/
theorem takeIdentifier?_append {name rest : List Char} (h : isIdentifier name = true)
    (hr : ∀ c ∈ rest.head?, Text.isWord c = false) :
    takeIdentifier? (name ++ rest) = some (name, rest) := by
  cases name with
  | nil => simp [isIdentifier] at h
  | cons c name =>
    simp only [isIdentifier, Bool.and_eq_true] at h
    have hw : ∀ d ∈ name, Text.isWord d = true := List.all_eq_true.1 h.2
    have htake : (name ++ rest).takeWhile Text.isWord = name := by
      rw [List.takeWhile_append_of_pos hw]
      cases rest with
      | nil => simp
      | cons d rest => simp [hr d rfl]
    have hdrop : (name ++ rest).dropWhile Text.isWord = rest := by
      rw [List.dropWhile_append_of_pos hw]
      cases rest with
      | nil => rfl
      | cons d rest => simp [hr d rfl]
    rw [List.cons_append, takeIdentifier?, if_pos h.1, htake, hdrop]

/-- What is read as an identifier is one. -/
theorem isIdentifier_of_takeIdentifier? {s name rest : List Char}
    (h : takeIdentifier? s = some (name, rest)) : isIdentifier name = true := by
  cases s with
  | nil => cases h
  | cons c s =>
    rw [takeIdentifier?] at h
    split at h
    · next hc =>
      obtain ⟨rfl, -⟩ := Prod.mk.inj (Option.some.inj h)
      rw [isIdentifier, hc, Bool.true_and, List.all_eq_true]
      exact fun d hd => List.mem_takeWhile_imp hd
    · cases h

/-! ## Callees -/

theorem calleeTail_append_self (s : List Char) : (calleeTail s).1 ++ (calleeTail s).2 = s := by
  fun_induction calleeTail s <;> simp_all

theorem mem_calleeTail (s : List Char) : ∀ c ∈ (calleeTail s).1, isNameChar c = true := by
  fun_induction calleeTail s with
  | case1 => simp
  | case2 c hw => simpa using isNameChar_of_isWord hw
  | case3 c hw => simp
  | case4 c d s hc tail rest htail ih =>
    rw [htail] at ih
    simp only [Bool.and_eq_true, Bool.or_eq_true, decide_eq_true_eq] at hc
    intro e he
    rcases List.mem_cons.1 he with rfl | he
    · simpa [isNameChar, or_assoc] using Or.inr hc.1
    · rcases List.mem_cons.1 he with rfl | he
      · exact isNameChar_of_isWord (Text.isWord_of_isIdentifierStart hc.2)
      · exact ih e he
  | case5 c d s hc hw tail rest htail ih =>
    rw [htail] at ih
    intro e he
    rcases List.mem_cons.1 he with rfl | he
    · exact isNameChar_of_isWord hw
    · exact ih e he
  | case6 c d s hc hw => simp

/-- What cannot go on with a callee. -/
theorem calleeTail_stop {rest : List Char} (h : ∀ c ∈ rest.head?, isNameChar c = false) :
    calleeTail rest = ([], rest) := by
  match rest, h with
  | [], _ => rfl
  | [c], h =>
    have hc := h c rfl
    simp only [isNameChar, Bool.or_eq_false_iff] at hc
    simp [calleeTail, hc.1.1]
  | c :: d :: rest, h =>
    have hc := h c rfl
    simp only [isNameChar, Bool.or_eq_false_iff, decide_eq_false_iff_not] at hc
    simp [calleeTail, hc.1.1, hc.1.2, hc.2]

theorem calleeTail_append {s rest : List Char} (hs : (calleeTail s).2 = [])
    (h : ∀ c ∈ rest.head?, isNameChar c = false) : calleeTail (s ++ rest) = (s, rest) := by
  fun_induction calleeTail s with
  | case1 => exact calleeTail_stop h
  | case2 c hw =>
    cases rest with
    | nil => simp [calleeTail, hw]
    | cons d rest =>
      have hne : c ≠ '.' ∧ c ≠ ':' := by
        constructor <;>
        · rintro rfl
          exact absurd hw (by decide)
      have htail := calleeTail_stop h
      simp [calleeTail, hw, hne, htail]
  | case3 c hw => simp at hs
  | case4 c d s hc tail rest' htail ih =>
    have ih := ih (by simpa [htail] using hs)
    rw [List.cons_append, List.cons_append, calleeTail, if_pos hc, ih]
  | case5 c d s hc hw tail rest' htail ih =>
    have ih := ih (by simpa [htail] using hs)
    rw [List.cons_append] at ih
    rw [List.cons_append, List.cons_append, calleeTail, if_neg hc, if_pos hw, ih]
  | case6 c d s hc hw => simp at hs

theorem isCallee_cons {c : Char} {s : List Char} :
    isCallee (c :: s) = true ↔ Text.isIdentifierStart c = true ∧ (calleeTail s).2 = [] := by
  unfold isCallee takeCallee?
  by_cases hc : Text.isIdentifierStart c = true
  · simp only [hc, if_true, true_and]
    cases (calleeTail s).2 <;> simp
  · simp [hc]

theorem isNameChar_of_isCallee {s : List Char} (h : isCallee s = true) :
    s ≠ [] ∧ ∀ c ∈ s, isNameChar c = true := by
  cases s with
  | nil => simp [isCallee, takeCallee?] at h
  | cons c s =>
    obtain ⟨hc, hs⟩ := isCallee_cons.1 h
    have hself : (calleeTail s).1 = s := by
      have := calleeTail_append_self s
      rwa [hs, List.append_nil] at this
    refine ⟨by simp, fun d hd => ?_⟩
    rcases List.mem_cons.1 hd with rfl | hd
    · exact isNameChar_of_isWord (Text.isWord_of_isIdentifierStart hc)
    · exact mem_calleeTail s d (by rwa [hself])

/-- A callee is read to its end. -/
theorem takeCallee?_append {name rest : List Char} (h : isCallee name = true)
    (hr : ∀ c ∈ rest.head?, isNameChar c = false) :
    takeCallee? (name ++ rest) = some (name, rest) := by
  cases name with
  | nil => simp [isCallee, takeCallee?] at h
  | cons c name =>
    obtain ⟨hc, hs⟩ := isCallee_cons.1 h
    rw [List.cons_append, takeCallee?, if_pos hc, calleeTail_append hs hr]

theorem atParenthesis?_cons {c : Char} (hb : Text.isBlank c = false) (hc : c ≠ '(')
    (s : List Char) : atParenthesis? (c :: s) = none := by
  rw [atParenthesis?, Text.trimLeft_cons hb]
  split
  · next h => exact absurd (List.cons.inj h).1 hc
  · rfl

theorem atParenthesis?_paren (s : List Char) : atParenthesis? ('(' :: s) = some ('(' :: s) := by
  have htrim : Text.trimLeft ('(' :: s) = '(' :: s := Text.trimLeft_cons (by decide) s
  simp [atParenthesis?, htrim]

theorem calledName?_append {name rest : List Char} (h : isCallee name = true) :
    calledName? (name ++ '(' :: rest) = some name := by
  rw [calledName?, takeCallee?_append h (forall_head_cons (by decide))]
  simp [atParenthesis?_paren]

/-- What is read of a callee is read to its end. -/
theorem calleeTail_calleeTail (s : List Char) : (calleeTail (calleeTail s).1).2 = [] := by
  fun_induction calleeTail s with
  | case1 => rfl
  | case2 c hw => simp [calleeTail, hw]
  | case3 c hw => rfl
  | case4 c d s hc tail rest htail ih =>
    rw [htail] at ih
    simp only [calleeTail, if_pos hc]
    exact ih
  | case5 c d s hc hw tail rest htail ih =>
    rw [htail] at ih
    have hne : ¬(c = '.' ∨ c = ':') := by
      rintro (rfl | rfl) <;> exact absurd hw (by decide)
    cases tail with
    | nil => simp [calleeTail, hw]
    | cons e tail =>
      have hnot : ((decide (c = '.') || decide (c = ':')) && Text.isIdentifierStart e) = false := by
        simp [hne]
      simp only [calleeTail, hnot, hw, if_true, Bool.false_eq_true, if_false]
      exact ih
  | case6 c d s hc hw => rfl

/-- What is called is a callee. -/
theorem isCallee_of_calledName? {s h : List Char} (hs : calledName? s = some h) :
    isCallee h = true := by
  obtain ⟨⟨callee, rest⟩, htake, hrest⟩ := Option.bind_eq_some_iff.1 hs
  obtain ⟨_, -, hh⟩ := Option.bind_eq_some_iff.1 hrest
  obtain rfl := Option.some.inj hh
  cases s with
  | nil => cases htake
  | cons c s =>
    rw [takeCallee?] at htake
    split at htake
    · next hstart =>
      obtain ⟨rfl, -⟩ := Prod.mk.inj (Option.some.inj htake)
      exact isCallee_cons.2 ⟨hstart, calleeTail_calleeTail s⟩
    · cases htake

/-- An identifier is a callee. -/
theorem isCallee_of_isIdentifier {s : List Char} (h : isIdentifier s = true) :
    isCallee s = true := by
  have htail : ∀ s : List Char, (∀ c ∈ s, Text.isWord c = true) → (calleeTail s).2 = [] := by
    intro s hs
    fun_induction calleeTail s with
    | case1 => rfl
    | case2 c hw => rfl
    | case3 c hw => exact absurd (hs c (by simp)) hw
    | case4 c d s hc tail rest htail ih =>
      rw [htail] at ih
      exact ih fun e he => hs e (by simp [he])
    | case5 c d s hc hw tail rest htail ih =>
      rw [htail] at ih
      exact ih fun e he => hs e (List.mem_cons_of_mem _ he)
    | case6 c d s hc hw => exact absurd (hs c (by simp)) hw
  cases s with
  | nil => simp [isIdentifier] at h
  | cons c s =>
    simp only [isIdentifier, Bool.and_eq_true] at h
    exact isCallee_cons.2 ⟨h.1, htail s (List.all_eq_true.1 h.2)⟩

/-! ## Names that are made up -/

theorem isIdentifier_append {s t : List Char} (hs : isIdentifier s = true)
    (ht : t.all Text.isWord = true) : isIdentifier (s ++ t) = true := by
  cases s with
  | nil => simp [isIdentifier] at hs
  | cons c s =>
    simp only [isIdentifier, Bool.and_eq_true] at hs
    simp [isIdentifier, hs.1, List.all_append, hs.2, ht]

/-- The handler made from the name of an element is an identifier. -/
theorem isIdentifier_derivedName (k : HandlerKey) (name : List Char) :
    isIdentifier (k.derivedName name) = true := by
  have hsuffix : k.suffix.toList.all Text.isWord = true := by cases k <;> decide
  have hword : (Element.alphanumerics name).all Text.isWord = true :=
    List.all_eq_true.2 fun c hc => Text.isWord_of_isAlphanum (List.mem_filter.1 hc).2
  have hon : isIdentifier "on".toList = true := by decide
  exact isIdentifier_append (isIdentifier_append hon hword) hsuffix

/-- The variable of a slider that names none is an identifier. -/
theorem isIdentifier_sliderVariable (name : List Char) :
    isIdentifier (Element.sliderVariable name) = true := by
  have hval : "Val".toList.all Text.isWord = true := by decide
  have hbase : ∀ c ∈ name.filter (fun c => c.isAlphanum || c == '_'),
      c.isAlphanum = true ∨ c = '_' := fun c hc => by
    simpa using (List.mem_filter.1 hc).2
  have hword : (name.filter (fun c => c.isAlphanum || c == '_')).all Text.isWord = true := by
    refine List.all_eq_true.2 fun c hc => ?_
    rcases hbase c hc with h | rfl
    · exact Text.isWord_of_isAlphanum h
    · decide
  refine isIdentifier_append ?_ hval
  have hslider : isIdentifier "slider".toList = true := by decide
  generalize name.filter (fun c => c.isAlphanum || c == '_') = base at hbase hword ⊢
  cases base with
  | nil => exact hslider
  | cons c base =>
    by_cases hc : c.isDigit = true
    · simp only [hc, if_true]
      exact isIdentifier_append hslider hword
    · simp only [hc]
      have hstart : Text.isIdentifierStart c = true := by
        rcases hbase c List.mem_cons_self with h | rfl
        · simpa [Text.isIdentifierStart, Char.isAlphanum, hc] using Or.inl h
        · decide
      rw [List.all_cons, Bool.and_eq_true] at hword
      simp [isIdentifier, hstart, hword.2]

end SceneScript.Lua
