import SceneScript.Proofs.Script.Statement
import SceneScript.Proofs.Traversal
import SceneScript.Script.Reader

/-!
# Blocks read back

A line between blanks means what its text means: a marker, the statement that it is, or a comment
(`LineContent.ofLine_marker`, `ofLine_statement`, `ofLine_drawLater`). So the reader takes the block
of a readable element as one unit, wherever it stands and whatever surrounds it: the element is
found at the place reached so far plus its own, and the context around is as before but for what
waited in it.

Main statements:

* `Element.Readable.block_eq`: the lines of the block.
* `ReaderState.readLines_block`: the block is read as one candidate, which records the element.
-/

namespace SceneScript

open Lua Text

/-! ## Lines -/

theorem trim_between {σ front back : List Char} (h : Tight σ) (hfront : front.all isBlank = true)
    (hback : back.all isBlank = true) : trim (front ++ σ ++ back) = σ := by
  rw [trim_append_blank hback, trim_blank_append hfront, h.trim]

/-- A statement is no comment. -/
theorem Lua.IsStatement.not_comment {σ : List Char} (h : IsStatement σ) :
    afterWord? "--".toList σ = none := by
  by_contra hsome
  obtain ⟨rest, hrest⟩ := Option.ne_none_iff_exists'.1 hsome
  obtain rfl : σ = '-' :: '-' :: rest := append_of_afterWord? hrest
  have hdash : Mode.next .code '-' = .code := by decide
  have hchain := h.scans.dashes
  rw [codeOf_code_cons, hdash, codeOf_code_cons, List.isChain_cons_cons] at hchain
  exact hchain.1 ⟨rfl, rfl⟩

namespace ReaderState.LineContent

/-- A line that is no comment means its statements. -/
theorem ofLine_code {l : Line} (h : afterWord? "--".toList (trim l) = none) :
    ofLine l = .ok (.statements (Lua.statements l)) := by
  rw [ofLine, h]
  rfl

section Between

variable {front back : List Char} (hfront : front.all isBlank = true)
  (hback : back.all isBlank = true)

include hfront hback

theorem ofLine_statement {σ : List Char} (h : IsStatement σ) :
    ofLine (front ++ σ ++ back) = .ok (.statements [σ]) := by
  rw [ofLine_code, h.statements_eq hfront hback]
  rw [trim_between h.tight hfront hback, h.not_comment]

theorem ofLine_marker {e : Element} (he : e.Readable) {w h : ℤ}
    (hw : w.natAbs < Nat.pow 2 2098) (hh : h.natAbs < Nat.pow 2 2098) :
    ofLine (front ++ Marker.text e w h ++ back) = .ok (.marker (Marker.ofElement e w h)) := by
  have hread := Marker.read_text he w h hw hh all_isBlank_nil all_isBlank_nil
  rw [List.nil_append, List.append_nil] at hread
  obtain ⟨rest, hrest⟩ : ∃ rest, Marker.text e w h = "--".toList ++ rest := by
    rw [Marker.text_eq]
    exact ⟨_, rfl⟩
  have hdashes : (afterWord? "--".toList (Marker.text e w h)).isSome = true := by
    rw [hrest, afterWord?_append]
    rfl
  rw [ofLine, trim_between (Marker.tight_text e w h) hfront hback, if_pos hdashes, hread]
  rfl

theorem ofLine_drawLater :
    ofLine (front ++ Shape.drawLaterComment ++ back) =
      .ok (.statements [Shape.drawLaterComment]) := by
  have htight : Tight Shape.drawLaterComment := ⟨⟨'-', rfl, by decide⟩, ⟨'t', rfl, by decide⟩⟩
  have hmarker : Marker.read Shape.drawLaterComment = .ok none := by
    have hword : afterWord? Marker.word (trim Shape.drawLaterComment) = none := by
      decide +kernel
    rw [Marker.read, hword]
  have hmatch : (matchStatement? Shape.drawLaterComment).isSome = true := by
    decide +kernel
  rw [ofLine, trim_between htight hfront hback, if_pos (by rfl), hmarker]
  exact congrArg (fun σs => Except.ok (LineContent.statements σs)) (if_pos hmatch)

end Between

end ReaderState.LineContent

/-! ## Openings and closings -/

theorem isStatement_opening : IsStatement "UiPush()".toList := by
  refine ⟨.of_plain (by decide), ⟨⟨'U', rfl, by decide⟩, ⟨')', rfl, by decide⟩⟩, ?_⟩
  unfold Flat
  decide

theorem isStatement_closing : IsStatement "UiPop()".toList := by
  refine ⟨.of_plain (by decide), ⟨⟨'U', rfl, by decide⟩, ⟨')', rfl, by decide⟩⟩, ?_⟩
  unfold Flat
  decide

/-! ## Moves -/

/-- The text of a move. -/
def moveText (x y : ℤ) : Line :=
  "UiTranslate(".toList ++ intDigits x ++ ", ".toList ++ intDigits y ++ ")".toList

theorem moveText_eq (x y : ℤ) : moveText x y =
    "UiTranslate".toList ++ '(' :: (join ", ".toList [intDigits x, intDigits y] ++ [')']) := by
  have h := append_five "UiTranslate(".toList (intDigits x) ", ".toList (intDigits y) ")".toList
  rw [join, List.append_assoc, List.append_assoc]
  exact h

theorem isNameChar_of_mem_translate : ∀ c ∈ "UiTranslate".toList, isNameChar c = true := by
  decide

theorem isArgument_of_mem_move {x y : ℤ} : ∀ t ∈ [intDigits x, intDigits y], IsArgument t := by
  intro t ht
  rcases List.mem_pair.1 ht with rfl | rfl
  · exact isArgument_intDigits x
  · exact isArgument_intDigits y

theorem isStatement_moveText (x y : ℤ) : IsStatement (moveText x y) := by
  have := Shape.isStatement_callText (isArgument_of_mem_move (x := x) (y := y)) (by decide)
    isNameChar_of_mem_translate
  rw [List.append_assoc] at this
  rw [moveText_eq]
  exact this

theorem moveArguments?_moveText (x y : ℤ) :
    moveArguments? (moveText x y) = some [intDigits x, intDigits y] := by
  have hcall : callOf? "UiTranslate" (moveText x y) =
      some ('(' :: (join ", ".toList [intDigits x, intDigits y] ++ ')' :: [])) := by
    rw [moveText_eq, callOf?_call isNameChar_of_mem_translate (by decide), if_pos rfl]
  rw [moveArguments?, hcall, Option.map_some, callArguments?_join isArgument_of_mem_move]

theorem inert_moveText (x y : ℤ) : Inert (moveText x y) := by
  rw [moveText_eq]
  have htake : takeIdentifier? ("UiTranslate".toList ++ '(' ::
      (join ", ".toList [intDigits x, intDigits y] ++ [')'])) =
      some ("UiTranslate".toList, '(' :: (join ", ".toList [intDigits x, intDigits y] ++ [')'])) :=
    takeIdentifier?_append (by decide) (forall_head_cons (by decide))
  exact ⟨isEmptyCall_of_head rfl, isEmptyCall_of_head rfl,
    binding?_of_head (Shape.afterLocal?_of_head (c := 'U') rfl (by decide))
      (assignment?_of_head htake (trimLeft_cons (by decide) _) (by decide))⟩

/-! ## The lines of a block -/

/-- The place and the size of an element in whole numbers. -/
structure Frame where
  /-- The horizontal place. -/
  x : ℤ
  /-- The vertical place. -/
  y : ℤ
  /-- The width. -/
  w : ℤ
  /-- The height. -/
  h : ℤ

/-- That an element rounds to a frame whose numbers are not too long to be read. -/
structure Element.RoundsTo (e : Element) (f : Frame) : Prop where
  x : e.x.roundHalfUp = .ok f.x
  y : e.y.roundHalfUp = .ok f.y
  w : e.w.roundHalfUp = .ok f.w
  h : e.h.roundHalfUp = .ok f.h
  x_lt : f.x.natAbs < Nat.pow 2 2098
  y_lt : f.y.natAbs < Nat.pow 2 2098
  w_lt : f.w.natAbs < Nat.pow 2 2098
  h_lt : f.h.natAbs < Nat.pow 2 2098

theorem Element.Readable.exists_roundsTo {e : Element} (he : e.Readable) :
    ∃ f, e.RoundsTo f := by
  obtain ⟨x, hx, hxlt⟩ := Num.roundHalfUp_of_finite he.x
  obtain ⟨y, hy, hylt⟩ := Num.roundHalfUp_of_finite he.y
  obtain ⟨w, hw, hwlt⟩ := Num.roundHalfUp_of_finite he.w
  obtain ⟨h, hh, hhlt⟩ := Num.roundHalfUp_of_finite he.h
  exact ⟨⟨x, y, w, h⟩, hx, hy, hw, hh, hxlt, hylt, hwlt, hhlt⟩

/-- The marker of an element in a frame. -/
def Frame.marker (f : Frame) (e : Element) : Marker := Marker.ofElement e f.w f.h

/-- The lines of the block of an element in a frame, with some statements, at an indent. -/
def blockLines (e : Element) (f : Frame) (σs : List Line) (indent : List Char) : List Line :=
  (indent ++ Marker.text e f.w f.h) :: (indent ++ "UiPush()".toList)
    :: (indent ++ indentStep ++ moveText f.x f.y) :: σs.map (indent ++ indentStep ++ ·)
    ++ [indent ++ "UiPop()".toList]

theorem Element.block_eq {e : Element} {f : Frame} {σs : List Line} (hf : e.RoundsTo f)
    (hσs : e.statements = .ok σs) (indent : List Char) :
    e.block indent = .ok (blockLines e f σs indent) := by
  have hmove : e.moveLine = .ok (moveText f.x f.y) := by
    rw [moveLine, hf.x, hf.y]
    rfl
  rw [block, Marker.line_eq hf.w hf.h, hmove, hσs]
  rfl

/-! ## Inert lines -/

/-- A text that holds only inert statements, on whatever line it stands. -/
structure InertLine (σ : Line) : Prop where
  flat : Flat σ
  inert : ∀ {front back : List Char}, front.all isBlank = true → back.all isBlank = true →
    ∀ τ ∈ Lua.statements (front ++ σ ++ back), Inert τ

theorem Inert.line {σ : Line} (h : Inert σ) (hσ : IsStatement σ) : InertLine σ := by
  refine ⟨hσ.flat, fun hfront hback τ hτ => ?_⟩
  rw [hσ.statements_eq hfront hback, List.mem_singleton] at hτ
  exact hτ ▸ h

theorem inertLine_drawLater : InertLine Shape.drawLaterComment := by
  refine ⟨?_, fun {front back} hfront hback τ hτ => ?_⟩
  · unfold Flat
    decide
  · obtain ⟨rest, hrest⟩ : ∃ rest, Shape.drawLaterComment = '-' :: '-' :: rest := ⟨_, rfl⟩
    rw [hrest, List.append_assoc, List.cons_append, List.cons_append,
      statements_comment hfront] at hτ
    simp at hτ

end SceneScript
