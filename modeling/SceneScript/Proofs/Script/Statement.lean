import Mathlib.Data.List.Nodup
import SceneScript.Proofs.Script.Shape
import SceneScript.Script.Reader

/-!
# Statements are recognised by their shape alone

A matcher of a word at the front of a text goes no further than the first character that the word
does not have (`afterWord?_append_cons`). So a call `F(` is a call of `F` and of nothing else, not
even of a function whose name `F` starts with, and an assignment `v, ` is no call at all.

`Quiet` collects what a statement of an element is not: it opens or closes no block, moves nowhere
and binds nothing.

Main statement: of the statements that a readable element is built of, the first is recognised as
one of its shape (`Shape.matchStatement?_call`, `matchStatement?_conditional`,
`matchStatement?_slider`).
-/

namespace SceneScript

open Lua Text

/-! ## Words at the front -/

/-- A word that lacks a character ends before it. -/
theorem afterWord?_append_cons {word name s rest : List Char} {c : Char} (hc : c ∉ word)
    (h : afterWord? word (name ++ c :: s) = some rest) :
    ∃ u, name = word ++ u ∧ rest = u ++ c :: s := by
  have happend := append_of_afterWord? h
  rcases List.append_eq_append_iff.1 happend with ⟨u, hword, hrest⟩ | ⟨u, hname, hrest⟩
  · cases u with
    | nil => exact ⟨[], by simpa using hword.symm, by simpa using hrest.symm⟩
    | cons d u =>
      obtain rfl : c = d := (List.cons.inj hrest).1
      exact absurd (hword ▸ List.mem_append_right _ List.mem_cons_self) hc
  · exact ⟨u, hname, hrest⟩

theorem afterWord?_of_head {word s : List Char} {a c : Char} (ha : word.head? = some a)
    (hc : s.head? = some c) (h : a ≠ c) : afterWord? word s = none := by
  cases word with
  | nil => simp at ha
  | cons b word =>
    cases s with
    | nil => rfl
    | cons d s =>
      obtain rfl : b = a := by simpa using ha
      obtain rfl : d = c := by simpa using hc
      rw [afterWord?, if_neg h]

theorem afterBlanks?_cons {c : Char} (hb : isBlank c = false) (s : List Char) :
    afterBlanks? (c :: s) = none := by
  rw [afterBlanks?, if_neg (by simp [hb])]

theorem trimLeft_space {c : Char} (hc : isBlank c = false) (s : List Char) :
    trimLeft (' ' :: c :: s) = c :: s := by
  have hspace : [' '].all isBlank = true := by decide
  exact (trimLeft_blank_append hspace (c :: s)).trans (trimLeft_cons hc s)

theorem afterBlanks?_space {c : Char} (hc : isBlank c = false) (s : List Char) :
    afterBlanks? (' ' :: c :: s) = some (c :: s) := by
  rw [afterBlanks?, if_pos (by decide), trimLeft_cons hc]

theorem exists_of_afterBlanks? {s rest : List Char} (h : afterBlanks? s = some rest) :
    ∃ c t, s = c :: t ∧ isBlank c = true ∧ rest = trimLeft t := by
  cases s with
  | nil => cases h
  | cons c t =>
    rw [afterBlanks?] at h
    split at h
    · next hc => exact ⟨c, t, rfl, hc, (Option.some.inj h).symm⟩
    · cases h

/-- A callee behind a blank, in front of a parenthesis, is a called name. -/
theorem calledName?_afterBlanks {name : List Char} (h : isCallee name = true) (s : List Char) :
    (afterBlanks? (' ' :: (name ++ '(' :: s))).bind calledName? = some name := by
  obtain ⟨hne, hname⟩ := isNameChar_of_isCallee h
  obtain ⟨c, rest, rfl⟩ := List.exists_cons_of_ne_nil hne
  have hc := isBlank_of_isNameChar (hname c List.mem_cons_self)
  rw [List.cons_append, afterBlanks?_space hc, Option.bind_some, ← List.cons_append,
    calledName?_append h]

/-- Characters of a name in front of a character that is neither blank nor a parenthesis. -/
theorem head_name_append {u s : List Char} {c : Char} (hu : ∀ d ∈ u, isNameChar d = true)
    (hc : isBlank c = false ∧ c ≠ '(') :
    ∃ d rest, u ++ c :: s = d :: rest ∧ isBlank d = false ∧ d ≠ '(' := by
  cases u with
  | nil => exact ⟨c, s, rfl, hc⟩
  | cons d u =>
    have hd := hu d List.mem_cons_self
    exact ⟨d, u ++ c :: s, rfl, isBlank_of_isNameChar hd, ne_of_isNameChar hd (by decide)⟩

/-! ## Calls -/

section Calls

variable {name : List Char} (hname : ∀ c ∈ name, isNameChar c = true)

include hname

/-- A call is a call of its function alone. -/
theorem callOf?_call {function : String} (hf : '(' ∉ function.toList) (s : List Char) :
    callOf? function (name ++ '(' :: s) =
      if function.toList = name then some ('(' :: s) else none := by
  unfold callOf?
  cases h : afterWord? function.toList (name ++ '(' :: s) with
  | none =>
    rw [if_neg]
    · rfl
    · rintro rfl
      rw [afterWord?_append] at h
      exact Option.some_ne_none _ h
  | some rest =>
    obtain ⟨u, hu, rfl⟩ := afterWord?_append_cons hf h
    rw [Option.bind_some]
    cases u with
    | nil =>
      rw [List.append_nil] at hu
      rw [if_pos hu.symm, List.nil_append, atParenthesis?_paren]
    | cons c u =>
      have hc : isNameChar c = true := hname c (by simp [hu])
      rw [List.cons_append, atParenthesis?_cons (isBlank_of_isNameChar hc)
        (ne_of_isNameChar hc (by decide)), if_neg]
      intro he
      simp [← he] at hu

/-- A name before a comma is no call. -/
theorem callOf?_comma {function : String} (hf : ',' ∉ function.toList) (s : List Char) :
    callOf? function (name ++ ',' :: s) = none := by
  unfold callOf?
  cases h : afterWord? function.toList (name ++ ',' :: s) with
  | none => rfl
  | some rest =>
    obtain ⟨u, rfl, rfl⟩ := afterWord?_append_cons hf h
    obtain ⟨d, rest, heq, hb, hd⟩ := head_name_append (s := s) (c := ',')
      (fun c hc => hname c (List.mem_append_right _ hc)) (by decide)
    rw [Option.bind_some, heq, atParenthesis?_cons hb hd]

/-- A name before blanks is no call, unless a parenthesis follows them. -/
theorem callOf?_blank {function : String} {c : Char} (hf : c ∉ function.toList)
    (hc : isBlank c = true) {s : List Char} (hs : atParenthesis? s = none) :
    callOf? function (name ++ c :: s) = none := by
  unfold callOf?
  cases h : afterWord? function.toList (name ++ c :: s) with
  | none => rfl
  | some rest =>
    obtain ⟨u, rfl, rfl⟩ := afterWord?_append_cons hf h
    rw [Option.bind_some]
    cases u with
    | nil =>
      rw [List.nil_append, atParenthesis?, trimLeft, List.dropWhile_cons_of_pos hc]
      exact hs
    | cons d u =>
      have hd := hname d (List.mem_append_right _ List.mem_cons_self)
      exact atParenthesis?_cons (isBlank_of_isNameChar hd) (ne_of_isNameChar hd (by decide)) _

theorem isEmptyCall_comma {function : List Char} (hf : ',' ∉ function) (s : List Char) :
    isEmptyCall function (name ++ ',' :: s) = false := by
  unfold isEmptyCall
  cases h : afterWord? function (name ++ ',' :: s) with
  | none => rfl
  | some rest =>
    obtain ⟨u, rfl, rfl⟩ := afterWord?_append_cons hf h
    obtain ⟨d, rest, heq, hb, hd⟩ := head_name_append (s := s) (c := ',')
      (fun c hc => hname c (List.mem_append_right _ hc)) (by decide)
    have hchar : afterChar? '(' (trimLeft (d :: rest)) = none := by
      rw [trimLeft_cons hb, afterChar?, afterWord?, if_neg (Ne.symm hd)]
    dsimp only
    rw [heq, hchar]

/-- A word and blanks are not what a name before a comma starts with. -/
theorem afterBlanks?_comma (word : List Char) (hw : ',' ∉ word) (s : List Char) :
    (afterWord? word (name ++ ',' :: s)).bind afterBlanks? = none := by
  cases h : afterWord? word (name ++ ',' :: s) with
  | none => rfl
  | some rest =>
    obtain ⟨u, rfl, rfl⟩ := afterWord?_append_cons hw h
    obtain ⟨d, rest, heq, hb, -⟩ := head_name_append (s := s) (c := ',')
      (fun c hc => hname c (List.mem_append_right _ hc)) (by decide)
    rw [Option.bind_some, heq, afterBlanks?_cons hb]

end Calls

namespace Shape

variable {s s' : Shape} (hs : s ∈ shapes) (hs' : s' ∈ shapes) (r : List Char)

theorem isNameChar_of_mem_function {s : Shape} (hs : s ∈ shapes) :
    ∀ c ∈ s.function.toList, isNameChar c = true := fun c hc =>
  isNameChar_of_isWord (isWord_of_isAlphanum (by
    simp [Char.isAlphanum, (wellFormed_of_mem_shapes s hs).letters c hc]))

theorem notMem_function {s : Shape} (hs : s ∈ shapes) {c : Char} (hc : isNameChar c = false) :
    c ∉ s.function.toList := fun hm => by
  rw [isNameChar_of_mem_function hs c hm] at hc
  exact Bool.noConfusion hc

theorem isIdentifier_function {s : Shape} (hs : s ∈ shapes) :
    isIdentifier s.function.toList = true := by
  have hu := (wellFormed_of_mem_shapes s hs).initial
  have hletters := (wellFormed_of_mem_shapes s hs).letters
  cases hf : s.function.toList with
  | nil => simp [hf] at hu
  | cons c rest =>
    rw [hf] at hletters
    simp only [isIdentifier, Bool.and_eq_true, List.all_eq_true]
    refine ⟨by simp [isIdentifierStart, hletters c List.mem_cons_self], fun d hd => ?_⟩
    exact isWord_of_isAlphanum (by
      simp [Char.isAlphanum, hletters d (List.mem_cons_of_mem _ hd)])

/-- The function tells the shape. -/
theorem eq_of_function {s s' : Shape} (hs : s ∈ shapes) (hs' : s' ∈ shapes)
    (h : s'.function = s.function) : s' = s :=
  List.inj_on_of_nodup_map nodup_functions hs' hs h

theorem head_call {s : Shape} (hs : s ∈ shapes) (r : List Char) :
    (s.function.toList ++ '(' :: r).head? = some 'U' := by
  rw [List.head?_append, (wellFormed_of_mem_shapes s hs).initial]
  rfl

theorem afterLocal?_of_head {s : List Char} {c : Char} (h : s.head? = some c) (hc : 'l' ≠ c) :
    afterLocal? s = none := by
  rw [afterLocal?, afterWord?_of_head (by rfl) h hc]
  rfl

include hs hs'

theorem opening?_call : s'.opening? (s.function.toList ++ '(' :: r) =
    if s'.form = .call ∧ s' = s then some ([], '(' :: r) else none := by
  have hhead := head_call hs r
  unfold opening?
  cases hform : s'.form with
  | call =>
    dsimp only
    rw [callOf?_call (isNameChar_of_mem_function hs) (notMem_function hs' (by decide))]
    by_cases h : s' = s
    · subst h
      simp
    · have hne : s'.function.toList ≠ s.function.toList := fun he =>
        h (eq_of_function hs hs' (String.toList_inj.1 he))
      simp [h, hne]
  | conditional =>
    have hif : afterWord? "if".toList (s.function.toList ++ '(' :: r) = none :=
      afterWord?_of_head rfl hhead (by decide)
    rw [hif]
    simp
  | slider =>
    have htake : takeIdentifier? (s.function.toList ++ '(' :: r) =
        some (s.function.toList, '(' :: r) :=
      takeIdentifier?_append (isIdentifier_function hs) (forall_head_cons (by decide))
    have hcomma : afterChar? ',' (trimLeft ('(' :: r)) = none := by
      rw [trimLeft_cons (by decide), afterChar?, afterWord?, if_neg (by decide)]
    have hopen : sliderOpening? s'.function (s.function.toList ++ '(' :: r) = none := by
      rw [sliderOpening?, htake]
      simp [hcomma]
    simp [optionalLocal, afterLocal?_of_head hhead (by decide), hopen]
  | comment => simp

theorem opening?_conditional : s'.opening? ("if ".toList ++ (s.function.toList ++ '(' :: r)) =
    if s'.form = .conditional ∧ s' = s then some ([], '(' :: r) else none := by
  have hhead : ("if ".toList ++ (s.function.toList ++ '(' :: r)).head? = some 'i' := rfl
  have hblank : isBlank 'U' = false := by decide
  obtain ⟨f, hf⟩ : ∃ f, s.function.toList ++ '(' :: r = 'U' :: f := by
    have := head_call hs r
    obtain ⟨f, hf⟩ := List.head?_eq_some_iff.1 this
    exact ⟨f, hf⟩
  unfold opening?
  cases hform : s'.form with
  | call =>
    have hnone : afterWord? s'.function.toList
        ("if ".toList ++ (s.function.toList ++ '(' :: r)) = none :=
      afterWord?_of_head (wellFormed_of_mem_shapes s' hs').initial hhead (by decide)
    simp only [callOf?, hnone]
    simp
  | conditional =>
    have hif : afterWord? "if".toList ("if ".toList ++ (s.function.toList ++ '(' :: r)) =
        some (' ' :: (s.function.toList ++ '(' :: r)) := afterWord?_append "if".toList _
    have hblanks : afterBlanks? (' ' :: (s.function.toList ++ '(' :: r)) =
        some (s.function.toList ++ '(' :: r) := by
      rw [hf, afterBlanks?_space hblank]
    rw [hif]
    simp only [Option.bind_eq_bind, Option.bind_some, hblanks]
    rw [callOf?_call (isNameChar_of_mem_function hs) (notMem_function hs' (by decide))]
    by_cases h : s' = s
    · subst h
      simp
    · have hne : s'.function.toList ≠ s.function.toList := fun he =>
        h (eq_of_function hs hs' (String.toList_inj.1 he))
      simp [h, hne]
  | slider =>
    have htake : takeIdentifier? ("if".toList ++ ' ' :: (s.function.toList ++ '(' :: r)) =
        some ("if".toList, ' ' :: (s.function.toList ++ '(' :: r)) :=
      takeIdentifier?_append (by decide) (forall_head_cons (by decide))
    have hcomma : afterChar? ',' (trimLeft (' ' :: (s.function.toList ++ '(' :: r))) = none := by
      rw [hf, trimLeft_space hblank, afterChar?, afterWord?, if_neg (by decide)]
    have hopen : sliderOpening? s'.function
        ("if ".toList ++ (s.function.toList ++ '(' :: r)) = none := by
      rw [show "if ".toList ++ (s.function.toList ++ '(' :: r) =
        "if".toList ++ ' ' :: (s.function.toList ++ '(' :: r) from rfl, sliderOpening?, htake]
      simp [hcomma]
    simp only [optionalLocal, afterLocal?_of_head hhead (by decide), hopen]
    simp
  | comment => simp

/-- An assignment of a call to two names is read. -/
theorem sliderOpening?_names {v done : List Char} (hv : isIdentifier v = true)
    (hdone : isIdentifier done = true) :
    sliderOpening? s'.function
      (v ++ ',' :: ' ' :: (done ++ ' ' :: '=' :: ' ' :: (s.function.toList ++ '(' :: r))) =
      if s' = s then some ([v, done], '(' :: r) else none := by
  obtain ⟨f, hf⟩ := List.head?_eq_some_iff.1 (head_call hs r)
  obtain ⟨c, rest, hcons⟩ := List.exists_cons_of_ne_nil (isWord_of_isIdentifier hdone).1
  have hc : isBlank c = false :=
    isBlank_of_isWord ((isWord_of_isIdentifier hdone).2 c (hcons ▸ List.mem_cons_self))
  have htakeValue := takeIdentifier?_append hv
    (forall_head_cons (c := ',') (by decide) (s := ' ' :: (done ++ ' ' :: '=' :: ' ' ::
      (s.function.toList ++ '(' :: r))))
  have htakeDone := takeIdentifier?_append hdone
    (forall_head_cons (c := ' ') (by decide) (s := '=' :: ' ' :: (s.function.toList ++ '(' :: r)))
  have hcomma : afterChar? ',' (trimLeft (',' :: ' ' :: (done ++ ' ' :: '=' :: ' ' ::
      (s.function.toList ++ '(' :: r)))) =
      some (' ' :: (done ++ ' ' :: '=' :: ' ' :: (s.function.toList ++ '(' :: r))) := by
    rw [trimLeft_cons (by decide)]
    rfl
  have hspace : trimLeft (' ' :: (done ++ ' ' :: '=' :: ' ' :: (s.function.toList ++ '(' :: r))) =
      done ++ ' ' :: '=' :: ' ' :: (s.function.toList ++ '(' :: r) := by
    rw [hcons]
    exact trimLeft_space hc _
  have hequals : afterChar? '=' (trimLeft (' ' :: '=' :: ' ' :: (s.function.toList ++ '(' :: r))) =
      some (' ' :: (s.function.toList ++ '(' :: r)) := by
    rw [trimLeft_space (by decide)]
    rfl
  have hfunction : trimLeft (' ' :: (s.function.toList ++ '(' :: r)) =
      s.function.toList ++ '(' :: r := by
    rw [hf]
    exact trimLeft_space (by decide) f
  rw [sliderOpening?, htakeValue]
  simp only [Option.bind_eq_bind, Option.bind_some, hcomma, hspace, htakeDone, hequals, hfunction]
  rw [callOf?_call (isNameChar_of_mem_function hs) (notMem_function hs' (by decide))]
  by_cases h : s' = s
  · subst h
    simp
  · have hne : s'.function.toList ≠ s.function.toList := fun he =>
      h (eq_of_function hs hs' (String.toList_inj.1 he))
    simp [h, hne]

theorem opening?_slider {v done : List Char} (hv : isIdentifier v = true)
    (hdone : isIdentifier done = true) :
    s'.opening? (v ++ ',' :: ' ' :: (done ++ ' ' :: '=' :: ' ' ::
      (s.function.toList ++ '(' :: r))) =
      if s'.form = .slider ∧ s' = s then some ([v, done], '(' :: r) else none := by
  have hname := isNameChar_of_isIdentifier hv
  have hread := sliderOpening?_names hs hs' r hv hdone
  unfold opening?
  cases hform : s'.form with
  | call =>
    dsimp only
    rw [callOf?_comma hname (notMem_function hs' (by decide))]
    simp
  | conditional =>
    have hif := afterBlanks?_comma hname "if".toList (by decide)
      (' ' :: (done ++ ' ' :: '=' :: ' ' :: (s.function.toList ++ '(' :: r)))
    simp only [Option.bind_eq_bind]
    rw [← Option.bind_assoc, hif]
    simp
  | slider =>
    have hlocal := afterBlanks?_comma hname "local".toList (by decide)
      (' ' :: (done ++ ' ' :: '=' :: ' ' :: (s.function.toList ++ '(' :: r)))
    dsimp only
    rw [optionalLocal, afterLocal?, hlocal, hread]
    simp
  | comment => simp

end Shape

/-! ## Recognised statements -/

theorem findSome?_of_unique {α β : Type} {l : List α} {f : α → Option β} {a : α} {b : β}
    (ha : a ∈ l) (hb : f a = some b) (hother : ∀ c ∈ l, c ≠ a → f c = none) :
    l.findSome? f = some b := by
  induction l with
  | nil => simp at ha
  | cons c l ih =>
    by_cases hc : c = a
    · rw [hc, List.findSome?_cons, hb]
    · rw [List.findSome?_cons, hother c List.mem_cons_self hc]
      exact ih ((List.mem_cons.1 ha).resolve_left (Ne.symm hc)) fun d hd =>
        hother d (List.mem_cons_of_mem _ hd)

theorem isDrawLater_of_head {σ : List Char} {c : Char} (h : σ.head? = some c) (hc : '-' ≠ c) :
    Shape.isDrawLater σ = false := by
  rw [Shape.isDrawLater, afterWord?_of_head rfl h hc]

/-- A statement that only one shape opens is recognised as one of that shape. -/
theorem matchStatement?_of_opening {s : Shape} {σ rest call : List Char}
    {args targets : List (List Char)} (hs : s ∈ shapes) (hform : s.form ≠ .comment)
    (htrim : trim σ = σ) (hcomment : Shape.isDrawLater σ = false)
    (hopen : ∀ s' ∈ shapes, s'.opening? σ =
      if s'.form = s.form ∧ s' = s then some (targets, call) else none)
    (hargs : callArguments? call = some (args, rest)) :
    matchStatement? σ = some (s, ⟨args,
      if s.form = .conditional then Shape.thenHandler? rest else none, targets⟩) := by
  refine findSome?_of_unique hs ?_ fun s' hs' hne => ?_
  · rw [Shape.recognize?, htrim, if_neg hform, hopen s hs, if_pos ⟨rfl, rfl⟩]
    simp [hargs]
  · have hnone : s'.opening? σ = none := by rw [hopen s' hs', if_neg fun h => hne h.2]
    simp [Shape.recognize?, htrim, hnone, hcomment]

/-! ## Quiet statements -/

/-- A statement that opens or closes no block and binds nothing. -/
structure Inert (σ : List Char) : Prop where
  opens : opensBlock σ = false
  closes : closesBlock σ = false
  binds : binding? σ = none

/-- An inert statement that moves nowhere. -/
structure Quiet (σ : List Char) : Prop extends Inert σ where
  moves : moveArguments? σ = none

theorem assignment?_of_head {σ name rest t : List Char} {c : Char}
    (h : takeIdentifier? σ = some (name, rest)) (hrest : trimLeft rest = c :: t) (hc : '=' ≠ c) :
    assignment? σ = none := by
  have hchar : afterChar? '=' (trimLeft rest) = none := by
    rw [hrest, afterChar?, afterWord?, if_neg hc]
  rw [assignment?, h]
  simp [hchar]

theorem binding?_of_head {σ : List Char} (hlocal : afterLocal? σ = none)
    (h : assignment? σ = none) : binding? σ = none := by
  rw [binding?, optionalLocal, hlocal, h]
  rfl

theorem isEmptyCall_of_head {function σ : List Char} (h : afterWord? function σ = none) :
    isEmptyCall function σ = false := by
  rw [isEmptyCall, h]

theorem moveArguments?_of_callOf? {σ : List Char} (h : callOf? "UiTranslate" σ = none) :
    moveArguments? σ = none := by
  rw [moveArguments?, h]
  rfl

/-- A call of a shape is quiet. -/
theorem quiet_call {s : Shape} (hs : s ∈ shapes) (r : List Char) :
    Quiet (s.function.toList ++ '(' :: r) := by
  have hwell := wellFormed_of_mem_shapes s hs
  have hname := Shape.isNameChar_of_mem_function hs
  have hempty : ∀ word : List Char, '(' ∉ word → ¬word <+: s.function.toList →
      isEmptyCall word (s.function.toList ++ '(' :: r) = false := by
    intro word hparen hprefix
    refine isEmptyCall_of_head ?_
    by_contra hsome
    obtain ⟨rest, hrest⟩ := Option.ne_none_iff_exists'.1 hsome
    obtain ⟨u, hu, -⟩ := afterWord?_append_cons hparen hrest
    exact hprefix ⟨u, hu.symm⟩
  refine ⟨⟨hempty _ (by decide) hwell.not_push, hempty _ (by decide) hwell.not_pop, ?_⟩, ?_⟩
  · have htake : takeIdentifier? (s.function.toList ++ '(' :: r) =
        some (s.function.toList, '(' :: r) :=
      takeIdentifier?_append (Shape.isIdentifier_function hs) (forall_head_cons (by decide))
    exact binding?_of_head (Shape.afterLocal?_of_head (Shape.head_call hs r) (by decide))
      (assignment?_of_head htake (trimLeft_cons (by decide) r) (by decide))
  · refine moveArguments?_of_callOf? ?_
    rw [callOf?_call hname (by decide), if_neg]
    exact fun h => hwell.not_move (String.toList_inj.1 h).symm

/-- A condition is quiet. -/
theorem quiet_if {c : Char} (hb : isBlank c = false) (hc : '=' ≠ c) (t : List Char) :
    Quiet ("if ".toList ++ c :: t) := by
  have hhead : ("if ".toList ++ c :: t).head? = some 'i' := rfl
  have htake : takeIdentifier? ("if".toList ++ ' ' :: c :: t) =
      some ("if".toList, ' ' :: c :: t) :=
    takeIdentifier?_append (by decide) (forall_head_cons (by decide))
  refine ⟨⟨isEmptyCall_of_head (afterWord?_of_head rfl hhead (by decide)),
    isEmptyCall_of_head (afterWord?_of_head rfl hhead (by decide)),
    binding?_of_head (Shape.afterLocal?_of_head hhead (by decide))
      (assignment?_of_head htake (trimLeft_space hb t) hc)⟩,
    moveArguments?_of_callOf? ?_⟩
  rw [callOf?, afterWord?_of_head (a := 'U') (by rfl) hhead (by decide)]
  rfl

/-- An assignment to two names is quiet. -/
theorem quiet_comma {v : List Char} (hv : isIdentifier v = true) (t : List Char) :
    Quiet (v ++ ',' :: t) := by
  have hname := isNameChar_of_isIdentifier hv
  have htake : takeIdentifier? (v ++ ',' :: t) = some (v, ',' :: t) :=
    takeIdentifier?_append hv (forall_head_cons (by decide))
  exact ⟨⟨isEmptyCall_comma hname (by decide) t, isEmptyCall_comma hname (by decide) t,
    binding?_of_head (afterBlanks?_comma hname _ (by decide) t)
      (assignment?_of_head htake (trimLeft_cons (by decide) t) (by decide))⟩,
    moveArguments?_of_callOf? (callOf?_comma hname (by decide) t)⟩

/-! ## The statements of an element -/

namespace Shape

variable {s : Shape} (hs : s ∈ shapes) {tokens : List (List Char)}
  (htokens : ∀ t ∈ tokens, IsArgument t)

theorem scans_statement_of_name {name : List Char} (h : ∀ c ∈ name, isNameChar c = true) :
    Scans isStatementCode name :=
  (scans_of_name h).mono fun c hc => by
    simp only [isArgumentCode, Bool.and_eq_true] at hc
    exact hc.1.2

theorem call_eq (s : Shape) (tokens : List (List Char)) (rest : List Char) :
    s.call tokens ++ rest =
      s.function.toList ++ '(' :: (join ", ".toList tokens ++ ')' :: rest) := by
  simp [call]

theorem flat_of_name {name : List Char} (h : ∀ c ∈ name, isNameChar c = true) : Flat name :=
  flat_of_not_isBlank fun c hc => isBlank_of_isNameChar (h c hc)

omit hs in
include htokens in
/-- A call of a name, between blanks, is a statement. -/
theorem isStatement_callText {name : List Char} (hne : name ≠ [])
    (hname : ∀ c ∈ name, isNameChar c = true) :
    IsStatement (name ++ '(' :: join ", ".toList tokens ++ [')']) := by
  have hinner : Scans isStatementCode (join ", ".toList tokens) :=
    (scans_join htokens).mono fun c hc => by
      simp only [isInnerCode, isArgumentCode, Bool.or_eq_true, Bool.and_eq_true,
        decide_eq_true_eq] at hc
      refine decide_eq_true ?_
      rcases hc with hc | rfl
      · simpa using hc.1.2
      · decide
  have hparen : Tight [')'] := Tight.of_forall (by simp) (by decide)
  have hopen : Flat ['('] ∧ Flat [')'] := by
    unfold Flat
    decide
  refine ⟨?_, ?_, ?_⟩
  · rw [List.append_assoc]
    refine (scans_statement_of_name hname).append
      (Scans.cons ?_ (by decide) (by decide) (by decide))
    exact hinner.append (.of_plain (by decide))
  · rw [List.append_assoc]
    exact (tight_of_name hne hname).append_append hparen ('(' :: join ", ".toList tokens)
  · exact ((flat_of_name hname).append (hopen.1.append (flat_join htokens))).append hopen.2

include hs htokens

theorem isStatement_call : IsStatement (s.call tokens) :=
  isStatement_callText htokens (isWord_of_isIdentifier (isIdentifier_function hs)).1
    (isNameChar_of_mem_function hs)

/-- A call is recognised. -/
theorem matchStatement?_call (hform : s.form = .call) :
    matchStatement? (s.call tokens) = some (s, ⟨tokens, none, []⟩) := by
  have htext : s.call tokens =
      s.function.toList ++ '(' :: (join ", ".toList tokens ++ ')' :: []) := by
    rw [← call_eq, List.append_nil]
  have htrim : trim (s.call tokens) = s.call tokens := (isStatement_call hs htokens).tight.trim
  rw [htext] at htrim ⊢
  have := matchStatement?_of_opening hs (by rw [hform]; decide) htrim
    (isDrawLater_of_head (head_call hs _) (by decide))
    (fun s' hs' => by rw [opening?_call hs hs', hform]) (callArguments?_join htokens [])
  rw [this, if_neg (by rw [hform]; decide)]

end Shape

/-! ### Conditions -/

namespace Shape

/-- A condition on a call, with a handler. -/
def conditionalText (s : Shape) (tokens : List (List Char)) (handler : List Char) : List Char :=
  "if ".toList ++ s.call tokens ++ " then ".toList ++ handler ++ "() end".toList

variable {s : Shape} (hs : s ∈ shapes) {tokens : List (List Char)}
  (htokens : ∀ t ∈ tokens, IsArgument t) {handler : List Char} (hh : isCallee handler = true)

theorem conditionalText_eq (s : Shape) (tokens : List (List Char)) (handler : List Char) :
    s.conditionalText tokens handler = "if ".toList ++ (s.function.toList ++ '(' ::
      (join ", ".toList tokens ++ ')' :: (" then ".toList ++ (handler ++ "() end".toList)))) := by
  have h := append_five "if ".toList (s.call tokens) " then ".toList handler "() end".toList
  rw [call_eq] at h
  exact h

/-- A condition starts and ends with a word. -/
theorem tight_conditionText {front back middle : List Char} :
    Tight ("if ".toList ++ front ++ middle ++ back ++ "() end".toList) :=
  ⟨head_append (head_append (head_append (head_append ⟨'i', rfl, by decide⟩ _) _) _) _,
    last_append ⟨'d', rfl, by decide⟩ _⟩

include hs htokens hh

theorem isStatement_conditional : IsStatement (s.conditionalText tokens handler) := by
  have hname := (isNameChar_of_isCallee hh).2
  refine ⟨?_, ?_, ?_⟩
  · exact ((((Scans.of_plain (by decide)).append (isStatement_call hs htokens).scans).append
      (.of_plain (by decide))).append (scans_statement_of_name hname)).append
        (.of_plain (by decide))
  · exact tight_conditionText
  · have hconst : Flat "if ".toList ∧ Flat " then ".toList ∧ Flat "() end".toList := by
      unfold Flat
      decide
    exact (((hconst.1.append (isStatement_call hs htokens).flat).append hconst.2.1).append
      (flat_of_name hname)).append hconst.2.2

omit htokens hh in
theorem quiet_conditional : Quiet (s.conditionalText tokens handler) := by
  obtain ⟨f, hf⟩ := List.head?_eq_some_iff.1 (head_call hs
    (join ", ".toList tokens ++ ')' :: (" then ".toList ++ (handler ++ "() end".toList))))
  rw [conditionalText_eq, hf]
  exact quiet_if (by decide) (by decide) f

/-- A condition is recognised, with its handler. -/
theorem matchStatement?_conditional (hform : s.form = .conditional) :
    matchStatement? (s.conditionalText tokens handler) =
      some (s, ⟨tokens, some handler, []⟩) := by
  have hthen : thenHandler? (" then ".toList ++ (handler ++ "() end".toList)) = some handler := by
    have htrim : trimLeft (" then ".toList ++ (handler ++ "() end".toList)) =
        "then".toList ++ ' ' :: (handler ++ '(' :: ") end".toList) :=
      trimLeft_space (by decide) _
    have hcalled := calledName?_afterBlanks hh ") end".toList
    rw [thenHandler?, htrim, afterWord?_append]
    exact hcalled
  have htrim := (isStatement_conditional hs htokens hh).tight.trim
  rw [conditionalText_eq] at htrim ⊢
  have := matchStatement?_of_opening hs (by rw [hform]; decide) htrim
    (isDrawLater_of_head (c := 'i') rfl (by decide))
    (fun s' hs' => by rw [opening?_conditional hs hs', hform]) (callArguments?_join htokens _)
  rw [this, if_pos hform, hthen]

end Shape

/-! ### Sliders -/

namespace Shape

/-- The arguments of a slider with a variable and two bounds. -/
def sliderTokens (v low high : List Char) : List (List Char) :=
  [quote "dot.png".toList, quote "x".toList, v ++ " or ".toList ++ low, low, high]

/-- The name that says whether a slider is done. -/
def doneName : List Char := "__done".toList

/-- The assignment of a slider. -/
def sliderText (s : Shape) (v low high : List Char) : List Char :=
  v ++ ", __done = ".toList ++ s.call (sliderTokens v low high)

/-- The assignment of a slider, written from left to right. -/
theorem sliderText_eq (s : Shape) (v low high : List Char) :
    v ++ ", __done = ".toList ++ s.function.toList ++ "(\"dot.png\", \"x\", ".toList ++ v
      ++ " or ".toList ++ low ++ ", ".toList ++ low ++ ", ".toList ++ high ++ ")".toList =
      s.sliderText v low high := by
  have hassoc : ∀ done f dot x or comma : List Char,
      v ++ done ++ f ++ '(' :: (dot ++ comma ++ (x ++ comma)) ++ v ++ or ++ low ++ comma ++ low ++
        comma ++ high ++ [')'] =
      v ++ done ++ (f ++ '(' :: (dot ++ comma ++ (x ++ comma ++ (v ++ or ++ low ++ comma ++
        (low ++ comma ++ high)))) ++ [')']) := by
    intro done f dot x or comma
    simp only [List.append_assoc, List.cons_append]
  exact hassoc ", __done = ".toList s.function.toList (quote "dot.png".toList) (quote "x".toList)
    " or ".toList ", ".toList

/-- The statement that calls the handler of a slider. -/
def followUpText (v handler : List Char) : List Char :=
  "if __done then ".toList ++ handler ++ "(".toList ++ v ++ ") end".toList

variable {s : Shape} (hs : s ∈ shapes) {v low high : List Char} (hv : isIdentifier v = true)
  (hlow : IsArgument low) (hhigh : IsArgument high)

include hv hlow in
theorem isArgument_or : IsArgument (v ++ " or ".toList ++ low) := by
  have hname := isNameChar_of_isIdentifier hv
  have harg := isArgument_of_name (isWord_of_isIdentifier hv).1 hname
  refine ⟨(harg.scans.append (.of_plain (by decide))).append hlow.scans, ?_, ?_⟩
  · rw [List.append_assoc]
    exact harg.tight.append_append hlow.tight _
  · have hor : Flat " or ".toList := by
      unfold Flat
      decide
    exact flat_append.2 ⟨flat_append.2 ⟨harg.flat, hor⟩, hlow.flat⟩

include hv hlow hhigh

theorem isArgument_sliderTokens : ∀ t ∈ sliderTokens v low high, IsArgument t := by
  intro t ht
  simp only [sliderTokens, List.mem_cons, List.not_mem_nil, or_false] at ht
  rcases ht with rfl | rfl | rfl | rfl | rfl
  · exact isArgument_quote _
  · exact isArgument_quote _
  · exact isArgument_or hv hlow
  · exact hlow
  · exact hhigh

include hs

theorem isStatement_slider : IsStatement (s.sliderText v low high) := by
  have htokens := isArgument_sliderTokens hv hlow hhigh
  have hname := isNameChar_of_isIdentifier hv
  refine ⟨?_, ?_, ?_⟩
  · exact ((scans_statement_of_name hname).append (.of_plain (by decide))).append
      (isStatement_call hs htokens).scans
  · rw [sliderText, List.append_assoc]
    exact (tight_of_name (isWord_of_isIdentifier hv).1 hname).append_append
      (isStatement_call hs htokens).tight _
  · have hdone : Flat ", __done = ".toList := by
      unfold Flat
      decide
    exact flat_append.2
      ⟨flat_append.2 ⟨flat_of_name hname, hdone⟩, (isStatement_call hs htokens).flat⟩

omit hs hlow hhigh in
theorem quiet_slider : Quiet (s.sliderText v low high) := by
  have := quiet_comma hv (" __done = ".toList ++ s.call (sliderTokens v low high))
  rw [sliderText, List.append_assoc]
  exact this

/-- The assignment of a slider is recognised, with the names that it assigns. -/
theorem matchStatement?_slider (hform : s.form = .slider) :
    matchStatement? (s.sliderText v low high) =
      some (s, ⟨sliderTokens v low high, none, [v, doneName]⟩) := by
  have htokens := isArgument_sliderTokens hv hlow hhigh
  have hstatement := isStatement_slider hs hv hlow hhigh
  have htext : s.sliderText v low high = v ++ ',' :: ' ' :: (doneName ++ ' ' :: '=' :: ' ' ::
      (s.function.toList ++ '(' :: (join ", ".toList (sliderTokens v low high) ++ ')' :: []))) := by
    rw [← call_eq, List.append_nil, sliderText, List.append_assoc]
    rfl
  obtain ⟨c, rest, rfl⟩ := List.exists_cons_of_ne_nil (isWord_of_isIdentifier hv).1
  have hc : '-' ≠ c := (ne_of_isNameChar (isNameChar_of_isIdentifier hv c List.mem_cons_self)
    (by decide)).symm
  have hcomment : isDrawLater (s.sliderText (c :: rest) low high) = false :=
    isDrawLater_of_head (c := c) rfl hc
  have htrim := hstatement.tight.trim
  rw [htext] at htrim hcomment ⊢
  have := matchStatement?_of_opening hs (by rw [hform]; decide) htrim hcomment
    (fun s' hs' => by rw [opening?_slider hs hs' _ hv (by decide), hform])
    (callArguments?_join htokens [])
  rw [this, if_neg (by rw [hform]; decide)]

end Shape

namespace Shape

variable {v handler : List Char} (hv : isIdentifier v = true) (hh : isCallee handler = true)

include hv hh

theorem isStatement_followUp : IsStatement (followUpText v handler) := by
  have hname := isNameChar_of_isIdentifier hv
  have hhandler := (isNameChar_of_isCallee hh).2
  refine ⟨?_, ?_, ?_⟩
  · exact ((((Scans.of_plain (by decide)).append (scans_statement_of_name hhandler)).append
      (.of_plain (by decide))).append (scans_statement_of_name hname)).append
        (.of_plain (by decide))
  · exact ⟨head_append (head_append (head_append (head_append ⟨'i', rfl, by decide⟩ _) _) _) _,
      last_append ⟨'d', rfl, by decide⟩ _⟩
  · have hconst : Flat "if __done then ".toList ∧ Flat "(".toList ∧ Flat ") end".toList := by
      unfold Flat
      decide
    exact (((hconst.1.append (flat_of_name hhandler)).append hconst.2.1).append
      (flat_of_name hname)).append hconst.2.2

omit hv hh in
theorem followUpText_eq : followUpText v handler = "if".toList ++ ' ' :: (doneName ++
    ' ' :: ("then".toList ++ ' ' :: (handler ++ '(' :: (v ++ ") end".toList)))) :=
  append_five "if __done then ".toList handler "(".toList v ") end".toList

omit hv hh in
theorem quiet_followUp : Quiet (followUpText v handler) := by
  rw [followUpText_eq]
  exact quiet_if (by decide) (by decide) _

/-- The handler of a slider is found. -/
theorem followUpHandler?_followUp {s : Shape} {call : Call} (hform : s.form = .slider)
    (htargets : call.targets = [v, doneName]) :
    s.followUpHandler? call (followUpText v handler) = some handler := by
  have htrim := (isStatement_followUp hv hh).tight.trim
  have hcalled := calledName?_afterBlanks hh (v ++ ") end".toList)
  have hthen : afterBlanks? (' ' :: ("then".toList ++ ' ' :: (handler ++ '(' ::
      (v ++ ") end".toList)))) =
      some ("then".toList ++ ' ' :: (handler ++ '(' :: (v ++ ") end".toList))) :=
    afterBlanks?_space (by decide) _
  have hdone : afterBlanks? (' ' :: (doneName ++ ' ' :: ("then".toList ++
      ' ' :: (handler ++ '(' :: (v ++ ") end".toList))))) =
      some (doneName ++ ' ' :: ("then".toList ++
        ' ' :: (handler ++ '(' :: (v ++ ") end".toList)))) :=
    afterBlanks?_space (by decide) _
  unfold followUpHandler?
  rw [hform, htargets]
  dsimp only
  rw [htrim, followUpText_eq, afterWord?_append]
  simp only [Option.bind_eq_bind, Option.bind_some, hdone]
  rw [afterWord?_append]
  simp only [Option.bind_some, hthen]
  rw [afterWord?_append]
  exact hcalled

end Shape

/-! ## Statements of readable elements -/

/-- What is read of an element: a text is recognised as a call of its shape that says what is
described of its props, and, in a condition, the handler. -/
structure Shape.Tells (s : Shape) (e : Element) (σ : List Char) (call : Call)
    (props : List (String × Json)) : Prop where
  recognized : matchStatement? σ = some (s, call)
  described : s.written.mapM e.describedEntry = .ok props
  extract : ∀ bindings, ∃ w? h?, s.extract bindings call =
    ⟨Table.empty.insertAll props, w?, h?, if s.form = .conditional then e.handlerName? else none⟩

/-- The same of a quiet statement. -/
structure Shape.Reads (s : Shape) (e : Element) (σ : List Char) (call : Call)
    (props : List (String × Json)) : Prop extends s.Tells e σ call props where
  isStatement : IsStatement σ
  quiet : Quiet σ

/-- A comment stands for an element without props. -/
theorem Shape.tells_drawLater {s : Shape} (hs : s ∈ shapes) (hform : s.form = .comment)
    (e : Element) : s.Tells e drawLaterComment ⟨[], none, []⟩ [] := by
  have hmatch : ∀ s ∈ shapes, s.form = .comment →
      matchStatement? drawLaterComment = some (s, ⟨[], none, []⟩) := by
    decide +kernel
  have hnone := (wellFormed_of_mem_shapes s hs).comment hform
  refine ⟨hmatch s hs hform, ?_, fun bindings => ⟨none, none, ?_⟩⟩
  · rw [Shape.written, if_neg (by rw [hform]; decide), hnone]
    rfl
  · rw [Shape.extract, if_neg (by rw [hform]; decide), hnone, if_neg (by rw [hform]; decide),
      addArguments, addDiameter]
    cases s.radius? <;> rfl

theorem quiet_drawLater : Quiet Shape.drawLaterComment := by
  have hbinding : (binding? Shape.drawLaterComment).isNone = true := by
    decide +kernel
  refine ⟨⟨?_, ?_, Option.isNone_iff_eq_none.1 hbinding⟩, ?_⟩
  · decide +kernel
  · decide +kernel
  · decide +kernel

theorem Shape.isArgument_of_mem_literals {s : Shape} (hs : s ∈ shapes) :
    ∀ t ∈ s.literals.map String.toList, IsArgument t := by
  intro t ht
  rcases (wellFormed_of_mem_shapes s hs).literals with h | h
  · simp [h] at ht
  · rw [h] at ht
    rw [List.mem_singleton.1 ht]
    exact isArgument_intDigits 1

section Readable

variable {e : Element} (he : e.Readable) {s : Shape} (hshape : shapeOf? e.type = some s)

include he hshape

theorem Element.Readable.handler_of_form (hform : s.form = .conditional ∨ s.form = .slider) :
    ∃ k name, s.handler? = some k ∧ e.handlerName? = some name ∧ isCallee name = true := by
  obtain ⟨hs, -⟩ := shapeOf?_eq_some hshape
  have hsome : s.handler?.isSome = true := by
    rw [(wellFormed_of_mem_shapes s hs).handler]
    rcases hform with h | h <;> simp [h]
  obtain ⟨k, hk⟩ := Option.isSome_iff_exists.1 hsome
  obtain ⟨name, hname, hcallee⟩ := he.handlerName hshape hk
  exact ⟨k, name, hk, hname, hcallee⟩

/-- The call that a readable element is built of, alone or in a condition, is read back. -/
theorem Shape.build_of_call (hform : s.form = .call ∨ s.form = .conditional) :
    ∃ σ call props, s.build e = .ok [σ] ∧ s.Reads e σ call props := by
  obtain ⟨hs, htype⟩ := shapeOf?_eq_some hshape
  obtain ⟨tokens, props, htokens, hall, hprops, hadd⟩ :=
    addArguments_of_readable he (htype ▸ (wellFormed_of_mem_shapes s hs).supported)
  have hliterals : ∀ t ∈ s.literals.map String.toList ++ tokens, IsArgument t :=
    List.forall_mem_append.2 ⟨isArgument_of_mem_literals hs, hall⟩
  have hdescribed : s.written.mapM e.describedEntry = .ok props := by
    rw [Shape.written, if_neg (by rcases hform with h | h <;> simp [h])]
    exact hprops
  have hextract : ∀ handler? targets bindings, ∃ w? h?,
      s.extract bindings ⟨s.literals.map String.toList ++ tokens, handler?, targets⟩ =
        ⟨Table.empty.insertAll props, w?, h?, handler?⟩ := by
    intro handler? targets bindings
    obtain ⟨w?, h?, hfields⟩ := hadd bindings ⟨Table.empty, none, none, handler?⟩
    have hdrop : (s.literals.map String.toList ++ tokens).drop s.literals.length = tokens := by
      simp
    rw [Shape.extract, if_neg (by rcases hform with h | h <;> simp [h]), hdrop, htype, hfields,
      Shape.addDiameter]
    split <;> exact ⟨_, _, rfl⟩
  rcases hform with hform | hform
  · refine ⟨_, _, props, ?_, ⟨matchStatement?_call hs hliterals hform, hdescribed,
      fun bindings => ?_⟩, isStatement_call hs hliterals, ?_⟩
    · rw [build, hform]
      dsimp only
      rw [htokens]
      rfl
    · rw [if_neg (by rw [hform]; decide)]
      exact hextract none [] bindings
    · have := quiet_call hs (join ", ".toList (s.literals.map String.toList ++ tokens) ++ [')'])
      rwa [← call_eq, List.append_nil] at this
  · obtain ⟨k, name, -, hname, hcallee⟩ := he.handler_of_form hshape (.inl hform)
    refine ⟨_, _, props, ?_, ⟨matchStatement?_conditional hs hliterals hcallee hform,
      hdescribed, fun bindings => ?_⟩, isStatement_conditional hs hliterals hcallee,
      quiet_conditional hs⟩
    · rw [build, hform]
      dsimp only
      rw [htokens, handlerText, hname]
      rfl
    · rw [if_pos hform, hname]
      exact hextract (some name) [] bindings

/-- A bound of a slider is written and read back. -/
theorem Shape.reads_bound (hform : s.form = .slider) {key : String}
    (hkey : key = "min" ∨ key = "max") :
    ∃ token v, numberProp e key = .ok token ∧ e.describedEntry (key, .number) = .ok (key, v) ∧
      IsArgument token ∧ ∀ bindings, (resolveNumber bindings token).map Json.num = some v := by
  obtain ⟨hs, htype⟩ := shapeOf?_eq_some hshape
  have hsupported : (Argument.mk (.prop key) .number).Supported e.type := by
    rw [← htype, (wellFormed_of_mem_shapes s hs).slider hform]
    rcases hkey with rfl | rfl <;> decide
  obtain ⟨token, v, hrender, hdescribe, hargument, hvalue⟩ :=
    Argument.reads_of_readable he hsupported
  exact ⟨token, v, hrender, describedEntry_of_prop rfl hdescribe, hargument, hvalue⟩

/-- The statements of a slider are read back. -/
theorem Shape.build_of_slider (hform : s.form = .slider) :
    ∃ v low high handler call props,
      s.build e = .ok [s.sliderText v low high, followUpText v handler] ∧
      s.Reads e (s.sliderText v low high) call props ∧ call.targets = [v, doneName] ∧
      isIdentifier v = true ∧ isCallee handler = true ∧ e.handlerName? = some handler := by
  obtain ⟨hs, htype⟩ := shapeOf?_eq_some hshape
  have hslider : e.type = ElementType.slider.name := by
    rw [← htype, (wellFormed_of_mem_shapes s hs).slider hform]
  obtain ⟨v, hvar, hv⟩ := he.resolveVar hslider
  obtain ⟨low, lowValue, hlow, hlowEntry, hlowArgument, hlowRead⟩ :=
    reads_bound he hshape hform (.inl rfl)
  obtain ⟨high, highValue, hhigh, hhighEntry, hhighArgument, hhighRead⟩ :=
    reads_bound he hshape hform (.inr rfl)
  obtain ⟨k, handler, -, hname, hcallee⟩ := he.handler_of_form hshape (.inr hform)
  refine ⟨v.toList, low, high, handler, _,
    [("var", .str v), ("min", lowValue), ("max", highValue)], ?_,
    ⟨⟨matchStatement?_slider hs hv hlowArgument hhighArgument hform, ?_, fun bindings => ?_⟩,
      isStatement_slider hs hv hlowArgument hhighArgument, quiet_slider hv⟩,
    rfl, hv, hcallee, hname⟩
  · rw [build, hform]
    dsimp only
    rw [buildSlider, hvar, hlow, hhigh, handlerText, hname]
    exact congrArg (fun σ => Except.ok [σ, followUpText v.toList handler])
      (sliderText_eq s v.toList low high)
  · have hentry : e.describedEntry ("var", .quoted) = .ok ("var", .str v) := by
      rw [Element.describedEntry, Element.describedProp, hvar]
      rfl
    rw [Shape.written, if_pos hform, List.mapM_cons, hentry, List.mapM_cons, hlowEntry,
      List.mapM_cons, hhighEntry]
    rfl
  · refine ⟨none, none, ?_⟩
    have hlowBound : s.sliderBound bindings ⟨sliderTokens v.toList low high, none,
        [v.toList, doneName]⟩ "min" 3 = some lowValue := by
      rw [sliderBound, show (sliderTokens v.toList low high)[3]? = some low from rfl,
        Option.bind_some, hlowRead]
      rfl
    have hhighBound : s.sliderBound bindings ⟨sliderTokens v.toList low high, none,
        [v.toList, doneName]⟩ "max" 4 = some highValue := by
      rw [sliderBound, show (sliderTokens v.toList low high)[4]? = some high from rfl,
        Option.bind_some, hhighRead]
      rfl
    rw [Shape.extract, if_pos hform, extractSlider, hlowBound, hhighBound,
      if_neg (by rw [hform]; decide), Table.insertAll_empty]
    simp

end Readable

end SceneScript
