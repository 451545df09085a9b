import SceneScript.Proofs.Script.Statement

/-!
# Recognition is unambiguous

A statement tells its form by the identifier in front of it and the first character behind that
(`leadingName?`, `formOf`): a parenthesis behind the name of a function, a comma behind the name of
a value, something else behind the words that stand in front of conditions and declarations, and no
identifier at all in front of comments. Shapes of one form are told apart by the functions that they
call, since a name that is followed by a parenthesis is read to its end.

Main statement: no statement is recognised by two shapes, so the shapes can be tried in any order,
and what opens or closes a block or moves is recognised by none (`recognize?_unambiguous`).
-/

namespace SceneScript

open Lua Text

/-! ## Leading names -/

/-- The identifier in front of a text, and the first character behind it that is no blank. -/
def leadingName? (s : List Char) : Option (List Char × Option Char) :=
  (takeIdentifier? s).map fun r => (r.1, (trimLeft r.2).head?)

theorem isWord_head_of_trimLeft {s : List Char} {c : Char} (h : (trimLeft s).head? = some c)
    (hc : isWord c = false) : ∀ d ∈ s.head?, isWord d = false := by
  intro d hd
  obtain ⟨t, rfl⟩ := List.head?_eq_some_iff.1 hd
  by_contra hword
  rw [Bool.not_eq_false] at hword
  rw [trimLeft_cons (isBlank_of_isWord hword), List.head?_cons, Option.some.injEq] at h
  rw [h, hc] at hword
  cases hword

theorem leadingName?_append {name s : List Char} {c : Char} (hname : isIdentifier name = true)
    (hs : (trimLeft s).head? = some c) (hc : isWord c = false) :
    leadingName? (name ++ s) = some (name, some c) := by
  rw [leadingName?, takeIdentifier?_append hname (isWord_head_of_trimLeft hs hc), ← hs]
  rfl

/-- A word, blanks and a text are led by the word and the first character of the text. -/
theorem leadingName?_of_afterBlanks? {word s t : List Char} (hword : isIdentifier word = true)
    (h : (afterWord? word s).bind afterBlanks? = some t) :
    leadingName? s = some (word, t.head?) := by
  obtain ⟨rest, hrest, hblanks⟩ := Option.bind_eq_some_iff.1 h
  obtain rfl := append_of_afterWord? hrest
  obtain ⟨b, u, rfl, hb, rfl⟩ := exists_of_afterBlanks? hblanks
  have hstop : ∀ d ∈ (b :: u).head?, isWord d = false := by
    refine forall_head_cons (Bool.eq_false_iff.2 fun hw => ?_)
    rw [isBlank_of_isWord hw] at hb
    cases hb
  rw [leadingName?, takeIdentifier?_append hword hstop, Option.map_some, trimLeft,
    List.dropWhile_cons_of_pos hb]
  rfl

/-- A call is a function and a parenthesis, with blanks between them. -/
theorem exists_of_callOf? {function : String} {s call : List Char}
    (h : callOf? function s = some call) :
    ∃ gap t, s = function.toList ++ (gap ++ '(' :: t) ∧ gap.all isBlank = true := by
  obtain ⟨rest, hrest, hparen⟩ := Option.bind_eq_some_iff.1 h
  unfold atParenthesis? at hparen
  split at hparen
  · next t hopen =>
    refine ⟨indentOf rest, t, ?_, by simp [indentOf]⟩
    rw [← hopen, indentOf_append]
    exact append_of_afterWord? hrest
  · cases hparen

/-- A name, blanks and a parenthesis are led by the name and the parenthesis. -/
theorem leadingName?_call {name gap : List Char} (hname : isIdentifier name = true)
    (hgap : gap.all isBlank = true) (t : List Char) :
    leadingName? (name ++ (gap ++ '(' :: t)) = some (name, some '(') :=
  leadingName?_append hname (by rw [trimLeft_blank_append hgap, trimLeft_cons (by decide)]; rfl)
    (by decide)

theorem leadingName?_of_callOf? {function : String} {s call : List Char}
    (hf : isIdentifier function.toList = true) (h : callOf? function s = some call) :
    leadingName? s = some (function.toList, some '(') := by
  obtain ⟨gap, t, rfl, hgap⟩ := exists_of_callOf? h
  exact leadingName?_call hf hgap t

/-- Two names are led by the first one and a comma. -/
theorem leadingName?_of_sliderOpening? {function : String} {s : List Char}
    {o : List (List Char) × List Char} (h : Shape.sliderOpening? function s = some o) :
    ∃ c ∈ s.head?, isIdentifierStart c = true ∧
      ∃ name, leadingName? s = some (name, some ',') := by
  obtain ⟨⟨name, rest⟩, hname, h⟩ := Option.bind_eq_some_iff.1 h
  obtain ⟨rest', hcomma, -⟩ := Option.bind_eq_some_iff.1 h
  have hhead : (trimLeft rest).head? = some ',' := by
    rw [append_of_afterWord? hcomma]
    rfl
  have hlead : leadingName? s = some (name, some ',') := by
    rw [leadingName?, hname, ← hhead]
    rfl
  cases s with
  | nil => cases hname
  | cons c s =>
    refine ⟨c, rfl, ?_, name, hlead⟩
    by_contra hc
    rw [takeIdentifier?, if_neg hc] at hname
    cases hname

/-! ## Forms -/

/-- The form that a leading name leaves to a statement. -/
def formOf : Option (List Char × Option Char) → Form
  | none => .comment
  | some (name, next?) =>
    if next? = some '(' then .call
    else if name = "if".toList ∧ next? ≠ some ',' then .conditional
    else .slider

namespace Shape

variable {s s' : Shape} {σ τ : List Char}

/-- How a statement of a shape starts, by the form of the shape. -/
def Starts (s : Shape) (τ : List Char) : Prop :=
  match s.form with
  | .call => ∃ call, callOf? s.function τ = some call
  | .conditional => ∃ rest, (afterWord? "if".toList τ).bind afterBlanks? = some rest ∧
      ∃ call, callOf? s.function rest = some call
  | .slider => ∃ rest, (afterLocal? τ = some rest ∨ rest = τ) ∧
      ∃ o, sliderOpening? s.function rest = some o
  | .comment => isDrawLater τ = true

theorem starts_of_opening? {o : List (List Char) × List Char} (h : s.opening? τ = some o) :
    s.Starts τ := by
  unfold opening? at h
  unfold Starts
  cases hform : s.form with
  | call =>
    rw [hform] at h
    obtain ⟨call, hcall, -⟩ := Option.map_eq_some_iff.1 h
    exact ⟨call, hcall⟩
  | conditional =>
    rw [hform] at h
    obtain ⟨rest, hrest, h⟩ := Option.bind_eq_some_iff.1 h
    obtain ⟨rest', hrest', h⟩ := Option.bind_eq_some_iff.1 h
    obtain ⟨call, hcall, -⟩ := Option.bind_eq_some_iff.1 h
    exact ⟨rest', by rw [hrest]; exact hrest', call, hcall⟩
  | slider =>
    rw [hform] at h
    rcases Option.or_eq_some_iff.1 h with h | ⟨-, h⟩
    · obtain ⟨rest, hrest, h⟩ := Option.bind_eq_some_iff.1 h
      exact ⟨rest, .inl hrest, o, h⟩
    · exact ⟨τ, .inr rfl, o, h⟩
  | comment =>
    rw [hform] at h
    cases h

theorem starts_of_recognize? {call : Call} (h : s.recognize? σ = some call) :
    s.Starts (trim σ) := by
  unfold recognize? at h
  dsimp only at h
  split at h
  · next hform =>
    split at h
    · next hcomment =>
      unfold Starts
      rw [hform]
      exact hcomment
    · cases h
  · obtain ⟨o, ho, -⟩ := Option.bind_eq_some_iff.1 h
    exact starts_of_opening? ho

/-- The leading name of a statement tells the form of its shape. -/
theorem formOf_of_starts (hs : s ∈ shapes) (h : s.Starts τ) :
    formOf (leadingName? τ) = s.form := by
  unfold Starts at h
  cases hform : s.form with
  | call =>
    rw [hform] at h
    obtain ⟨call, hcall⟩ := h
    rw [leadingName?_of_callOf? (isIdentifier_function hs) hcall]
    rfl
  | conditional =>
    rw [hform] at h
    obtain ⟨rest, hrest, call, hcall⟩ := h
    have hhead : rest.head? = some 'U' := by
      obtain ⟨gap, t, rfl, -⟩ := exists_of_callOf? hcall
      rw [List.head?_append, (wellFormed_of_mem_shapes s hs).initial]
      rfl
    rw [leadingName?_of_afterBlanks? (by decide) hrest, hhead]
    rfl
  | slider =>
    rw [hform] at h
    obtain ⟨rest, hrest, o, ho⟩ := h
    obtain ⟨c, hc, hstart, name, hname⟩ := leadingName?_of_sliderOpening? ho
    rcases hrest with hlocal | rfl
    · have hparen : rest.head? ≠ some '(' := fun heq => by
        obtain rfl := Option.some.inj (hc.symm.trans heq)
        exact absurd hstart (by decide)
      rw [leadingName?_of_afterBlanks? (by decide) hlocal, formOf, if_neg hparen,
        if_neg fun hif => absurd hif.1 (by decide)]
    · simp [hname, formOf]
  | comment =>
    rw [hform] at h
    have hcomment : isDrawLater τ = true := h
    unfold isDrawLater at hcomment
    split at hcomment
    · cases hcomment
    · next rest hrest =>
      rw [append_of_afterWord? hrest]
      rfl

/-! ## One shape -/

/-- There is one shape for assignments, and one for comments. -/
theorem eq_of_form : ∀ s ∈ shapes, ∀ s' ∈ shapes, s.form = s'.form →
    s.form = .slider ∨ s.form = .comment → s = s' := by
  decide +kernel

theorem eq_of_callOf? (hs : s ∈ shapes) (hs' : s' ∈ shapes) {call call' : List Char}
    (h : callOf? s.function τ = some call) (h' : callOf? s'.function τ = some call') : s = s' := by
  have hlead := leadingName?_of_callOf? (isIdentifier_function hs) h
  rw [leadingName?_of_callOf? (isIdentifier_function hs') h', Option.some.injEq,
    Prod.mk.injEq] at hlead
  exact eq_of_function hs' hs (String.toList_inj.1 hlead.1.symm)

/-- A statement starts the way of one shape at most. -/
theorem eq_of_starts (hs : s ∈ shapes) (hs' : s' ∈ shapes) (h : s.Starts τ) (h' : s'.Starts τ) :
    s = s' := by
  have hforms : s.form = s'.form := (formOf_of_starts hs h).symm.trans (formOf_of_starts hs' h')
  unfold Starts at h h'
  rw [← hforms] at h'
  cases hform : s.form with
  | call =>
    rw [hform] at h h'
    obtain ⟨call, hcall⟩ := h
    obtain ⟨call', hcall'⟩ := h'
    exact eq_of_callOf? hs hs' hcall hcall'
  | conditional =>
    rw [hform] at h h'
    obtain ⟨rest, hrest, call, hcall⟩ := h
    obtain ⟨rest', hrest', call', hcall'⟩ := h'
    obtain rfl := Option.some.inj (hrest.symm.trans hrest')
    exact eq_of_callOf? hs hs' hcall hcall'
  | slider => exact eq_of_form s hs s' hs' hforms (.inl hform)
  | comment => exact eq_of_form s hs s' hs' hforms (.inr hform)

/-- A statement is recognised by one shape at most. -/
theorem recognize?_eq_none_or (hs : s ∈ shapes) (hs' : s' ∈ shapes) (hne : s ≠ s') (σ : List Char) :
    s.recognize? σ = none ∨ s'.recognize? σ = none := by
  by_contra h
  rw [not_or, ← ne_eq, ← ne_eq, Option.ne_none_iff_exists', Option.ne_none_iff_exists'] at h
  obtain ⟨⟨call, hcall⟩, ⟨call', hcall'⟩⟩ := h
  exact hne (eq_of_starts hs hs' (starts_of_recognize? hcall) (starts_of_recognize? hcall'))

/-- Shapes tried in any order give the same match. -/
theorem findSome?_of_perm {table : List Shape} (h : table.Perm shapes) (σ : List Char) :
    table.findSome? (fun s => (s.recognize? σ).map (s, ·)) = matchStatement? σ := by
  cases hmatch : matchStatement? σ with
  | none =>
    refine List.findSome?_eq_none_iff.2 fun s hs => ?_
    exact List.findSome?_eq_none_iff.1 hmatch s (h.mem_iff.1 hs)
  | some m =>
    obtain ⟨s, hs, hm⟩ := List.exists_of_findSome?_eq_some hmatch
    obtain ⟨call, hcall, -⟩ := Option.map_eq_some_iff.1 hm
    refine findSome?_of_unique (h.mem_iff.2 hs) hm fun s' hs' hne => ?_
    rcases recognize?_eq_none_or (h.mem_iff.1 hs') hs hne σ with hnone | hnone
    · rw [hnone]
      rfl
    · rw [hnone] at hcall
      cases hcall

/-! ## Blocks and moves -/

/-- A call of a function that is no function of a shape is recognised by no shape. -/
theorem matchStatement?_eq_none {name gap : List Char} (hname : isIdentifier name = true)
    (hfunction : ∀ s ∈ shapes, s.function.toList ≠ name) (hgap : gap.all isBlank = true)
    (t : List Char) : matchStatement? (name ++ (gap ++ '(' :: t)) = none := by
  have htight : Tight (name ++ (gap ++ ['('])) :=
    (tight_of_name (isWord_of_isIdentifier hname).1
      (isNameChar_of_isIdentifier hname)).append_append (.of_forall (by simp) (by decide)) gap
  have htrim : trim (name ++ (gap ++ '(' :: t)) = name ++ (gap ++ '(' :: trimRight t) := by
    have := htight.trim_append t
    simpa only [List.append_assoc, List.singleton_append] using this
  have hlead := leadingName?_call hname hgap (trimRight t)
  rw [← htrim] at hlead
  refine List.findSome?_eq_none_iff.2 fun s hs => ?_
  rw [Option.map_eq_none_iff, Option.eq_none_iff_forall_not_mem]
  intro call hcall
  have hstarts := starts_of_recognize? hcall
  have hform : s.form = .call := by
    rw [← formOf_of_starts hs hstarts, hlead]
    rfl
  unfold Starts at hstarts
  rw [hform] at hstarts
  obtain ⟨opened, hopened⟩ := hstarts
  rw [leadingName?_of_callOf? (isIdentifier_function hs) hopened, Option.some.injEq,
    Prod.mk.injEq] at hlead
  exact hfunction s hs hlead.1

/-- What starts with a name that is neither a word of a form nor followed by a parenthesis or a
comma is recognised by no shape. -/
theorem matchStatement?_of_leadingName? {name : List Char} {next? : Option Char}
    (h : leadingName? (trim σ) = some (name, next?)) (hname : name ≠ "if".toList)
    (hlocal : name ≠ "local".toList) (hparen : next? ≠ some '(') (hcomma : next? ≠ some ',') :
    matchStatement? σ = none := by
  refine List.findSome?_eq_none_iff.2 fun s hs => ?_
  rw [Option.map_eq_none_iff, Option.eq_none_iff_forall_not_mem]
  intro call hcall
  have hstarts := starts_of_recognize? hcall
  have hform : s.form = .slider := by
    rw [← formOf_of_starts hs hstarts, h, formOf, if_neg hparen, if_neg fun hif => hname hif.1]
  unfold Starts at hstarts
  rw [hform] at hstarts
  obtain ⟨rest, hrest, o, ho⟩ := hstarts
  rcases hrest with hrest | rfl
  · rw [leadingName?_of_afterBlanks? (by decide) hrest, Option.some.injEq, Prod.mk.injEq] at h
    exact hlocal h.1.symm
  · obtain ⟨-, -, -, name', hname'⟩ := leadingName?_of_sliderOpening? ho
    rw [hname', Option.some.injEq, Prod.mk.injEq] at h
    exact hcomma h.2.symm

end Shape

/-- An empty call is the function and a parenthesis, with blanks between them. -/
theorem exists_of_isEmptyCall {function σ : List Char} (h : isEmptyCall function σ = true) :
    ∃ gap t, σ = function ++ (gap ++ '(' :: t) ∧ gap.all isBlank = true := by
  unfold isEmptyCall at h
  split at h
  · cases h
  · next rest hrest =>
    split at h
    · cases h
    · next t hopen =>
      refine ⟨indentOf rest, t, ?_, by simp [indentOf]⟩
      have hopened : trimLeft rest = '(' :: t := append_of_afterWord? hopen
      rw [← hopened, indentOf_append]
      exact append_of_afterWord? hrest

/-- No two shapes recognise a statement, so it matches the same shape in the same way in whatever
order they are tried; and what opens or closes a block, or is a move, matches none. -/
theorem recognize?_unambiguous (σ : List Char) :
    shapes.Pairwise (fun s s' => s.recognize? σ = none ∨ s'.recognize? σ = none) ∧
    (∀ table : List Shape, table.Perm shapes →
      table.findSome? (fun s => (s.recognize? σ).map (s, ·)) = matchStatement? σ) ∧
    (opensBlock σ = true ∨ closesBlock σ = true ∨ (moveArguments? σ).isSome = true →
      matchStatement? σ = none) := by
  refine ⟨?_, fun table htable => Shape.findSome?_of_perm htable σ, ?_⟩
  · exact (List.Nodup.of_map _ nodup_functions).pairwise_of_forall_ne fun s hs s' hs' hne =>
      Shape.recognize?_eq_none_or hs hs' hne σ
  · rintro (h | h | h)
    · obtain ⟨gap, t, rfl, hgap⟩ := exists_of_isEmptyCall h
      exact Shape.matchStatement?_eq_none (by decide) (by decide) hgap t
    · obtain ⟨gap, t, rfl, hgap⟩ := exists_of_isEmptyCall h
      exact Shape.matchStatement?_eq_none (by decide) (by decide) hgap t
    · rw [moveArguments?, Option.isSome_map] at h
      obtain ⟨call, hcall⟩ := Option.isSome_iff_exists.1 h
      obtain ⟨gap, t, rfl, hgap⟩ := exists_of_callOf? hcall
      exact Shape.matchStatement?_eq_none (by decide) (by decide) hgap t

/-- An outline matches the same in the reverse order, where a longer name comes first, and what
opens a block matches nothing. -/
theorem recognize?_unambiguous_outline :
    (shapes.reverse.Perm shapes ∧
      shapes.reverse.findSome?
          (fun s => (s.recognize? "UiRectOutline (1, 2, 3)".toList).map (s, ·)) =
        matchStatement? "UiRectOutline (1, 2, 3)".toList) ∧
    opensBlock "UiPush ( )".toList = true ∧ matchStatement? "UiPush ( )".toList = none := by
  have hreverse : shapes.reverse.Perm shapes := List.reverse_perm shapes
  have hopens : opensBlock "UiPush ( )".toList = true := by decide
  exact ⟨⟨hreverse, (recognize?_unambiguous _).2.1 _ hreverse⟩, hopens,
    (recognize?_unambiguous _).2.2 (.inl hopens)⟩

end SceneScript
