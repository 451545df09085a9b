import SceneScript.Proofs.Lua.Ends
import SceneScript.Proofs.Script.Numbering
import SceneScript.Proofs.Script.Ownership

/-!
# Layout that says nothing

A script may be laid out anew: white space at the ends of its lines comes and goes, blank lines and
plain comments are put in (`Relaid`). What a line means depends on the trimmed line alone
(`LineContent.ofLine_eq_of_trim_eq`), and a line of noise means nothing (`IsNoise.readLine_eq`), so
the reader is in the same state behind both scripts but for the numbers of the lines. The numbers
bound to names are the same as well, since noise has no statements.

Main statement: a script that is laid out anew has the same candidates, in the same order, but for
the numbers of their lines (`unnumbered_of_relaid`).
-/

namespace SceneScript

open Lua Text

open ReaderState (LineContent)

/-! ## Comments -/

/-- A statement that starts with a dash is no call, no condition and no assignment. -/
theorem Shape.opening?_of_dash {s : Shape} (hs : s ∈ shapes) {σ : List Char}
    (hhead : σ.head? = some '-') : s.opening? σ = none := by
  have hword : ∀ {word : List Char} {a : Char}, word.head? = some a → a ≠ '-' →
      afterWord? word σ = none := fun ha hne => afterWord?_of_head ha hhead hne
  obtain ⟨rest, rfl⟩ := List.head?_eq_some_iff.1 hhead
  unfold Shape.opening?
  cases s.form with
  | call =>
    dsimp only
    rw [callOf?, hword (wellFormed_of_mem_shapes s hs).initial (by decide)]
    rfl
  | conditional =>
    rw [hword (by rfl) (by decide)]
    rfl
  | slider =>
    have htake : takeIdentifier? ('-' :: rest) = none := rfl
    dsimp only
    rw [optionalLocal, afterLocal?, hword (by rfl) (by decide), Shape.sliderOpening?, htake]
    rfl
  | comment => rfl

/-- A comment is at most the statement of a delayed drawing. -/
theorem matchStatement?_of_comment {σ : List Char}
    (hcomment : (afterWord? "--".toList (trim σ)).isSome = true)
    (hdraw : Shape.isDrawLater (trim σ) = false) : matchStatement? σ = none := by
  obtain ⟨rest, hrest⟩ := Option.isSome_iff_exists.1 hcomment
  have hhead : (trim σ).head? = some '-' := by
    rw [append_of_afterWord? hrest]
    rfl
  refine List.findSome?_eq_none_iff.2 fun s hs => ?_
  rw [Shape.recognize?, hdraw, Shape.opening?_of_dash hs hhead]
  simp

/-! ## Trimmed lines -/

/-- What a line means depends on the trimmed line alone. -/
theorem ReaderState.LineContent.ofLine_eq_of_trim_eq {l l' : Line} (h : trim l = trim l') :
    ofLine l = ofLine l' := by
  unfold ofLine
  rw [h, statements_eq_of_trim_eq h]

/-! ## Noise -/

/-- A line that says nothing: nothing but white space, or a comment that is neither a marker nor a
delayed drawing. -/
inductive IsNoise (l : Line) : Prop
  | blank (h : isBlankText l = true)
  | comment (hcomment : (afterWord? "--".toList (trim l)).isSome = true)
      (hmarker : Marker.read l = .ok none) (hdraw : Shape.isDrawLater (trim l) = false)

namespace IsNoise

variable {l : Line} (h : IsNoise l)

include h

theorem statements_eq : Lua.statements l = [] := by
  cases h with
  | blank h => exact statements_of_blank h
  | comment hcomment _ _ => exact statements_of_comment hcomment

theorem ofLine_eq : LineContent.ofLine l = .ok (.statements []) := by
  cases h with
  | blank h => exact LineContent.ofLine_of_blank h
  | comment hcomment hmarker hdraw =>
    have hmatch : matchStatement? (trim l) = none :=
      matchStatement?_of_comment (by rwa [trim_trim]) (by rwa [trim_trim])
    rw [LineContent.ofLine, if_pos hcomment, Marker.read_trim, hmarker, hmatch]
    rfl

/-- Noise leaves the reader as it is. -/
theorem readLine_eq (bindings : Lua.Bindings) (r : ReaderState) (n : ℕ) :
    r.readLine bindings l n = .ok r := by
  rw [ReaderState.readLine, h.ofLine_eq]
  rfl

end IsNoise

/-! ## Scripts laid out anew -/

/-- Lines that are laid out anew: each line stays as it is but for the white space at its ends, and
lines of noise are put in. -/
inductive Relaid : List Line → List Line → Prop
  | nil : Relaid [] []
  | line {l l' : Line} {ls ls' : List Line} (h : trim l = trim l') (hls : Relaid ls ls') :
      Relaid (l :: ls) (l' :: ls')
  | noise {l : Line} {ls ls' : List Line} (h : IsNoise l) (hls : Relaid ls ls') :
      Relaid ls (l :: ls')

namespace Relaid

variable {ls ls' : List Line} (h : Relaid ls ls')

include h

theorem flatMap_statements_eq : ls'.flatMap Lua.statements = ls.flatMap Lua.statements := by
  induction h with
  | nil => rfl
  | line h _ ih => rw [List.flatMap_cons, List.flatMap_cons, ih, statements_eq_of_trim_eq h]
  | noise h _ ih => rw [List.flatMap_cons, h.statements_eq, List.nil_append, ih]

theorem bindingsOf_eq : bindingsOf ls' = bindingsOf ls := by
  rw [bindingsOf, h.flatMap_statements_eq, bindingsOf]

/-- Lines laid out anew are read as before, the numbers of the lines left out. -/
theorem foldlM_readLine_eq (bindings : Lua.Bindings) (r : ReaderState) :
    ls'.foldlM (fun r l => r.readLine bindings l 0) r =
      ls.foldlM (fun r l => r.readLine bindings l 0) r := by
  induction h generalizing r with
  | nil => rfl
  | @line l l' ls ls' h _ ih =>
    have hread : r.readLine bindings l' 0 = r.readLine bindings l 0 := by
      rw [ReaderState.readLine, ReaderState.readLine, LineContent.ofLine_eq_of_trim_eq h]
    rw [List.foldlM_cons, List.foldlM_cons, hread]
    exact congrArg _ (funext ih)
  | noise h _ ih =>
    rw [List.foldlM_cons, h.readLine_eq]
    exact ih r

end Relaid

/-- A script laid out anew is read as before, the numbers of the lines left out. -/
theorem unnumbered_candidatesOf_eq {text text' : List Char}
    (h : Relaid (Text.lines text) (Text.lines text')) :
    (candidatesOf text').map (·.map Candidate.unnumbered) =
      (candidatesOf text).map (·.map Candidate.unnumbered) := by
  rw [unnumbered_candidatesOf, unnumbered_candidatesOf, h.bindingsOf_eq, h.foldlM_readLine_eq]

/-- A script laid out anew has the same candidates but for the numbers of their lines. -/
theorem unnumbered_of_relaid {text text' : List Char}
    (h : Relaid (Text.lines text) (Text.lines text')) {cs : List Candidate}
    (hcs : candidatesOf text = .ok cs) :
    ∃ cs', candidatesOf text' = .ok cs' ∧
      cs'.map Candidate.unnumbered = cs.map Candidate.unnumbered := by
  have heq := unnumbered_candidatesOf_eq h
  rw [hcs] at heq
  exact map_eq_ok.1 heq

/-- A slider and the condition behind it that calls its handler. -/
def gainLines : List String :=
  ["--TDGUI id=a name=Gain type=slider", "UiPush()",
    "gain, __done = UiSlider(\"dot.png\", \"x\", 1, 0, 9)", "if __done then changed() end",
    "UiPop()"]

/-- The lines of the slider indented, with a blank line, comments and a carriage return. -/
def looseGainLines : List String :=
  ["-- the gain", "  --TDGUI id=a name=Gain type=slider ", "", "UiPush()\r",
    "\tgain, __done = UiSlider(\"dot.png\", \"x\", 1, 0, 9)", "  \t", "  -- follows: UiPop()",
    "\tif __done then changed() end", "UiPop()"]

/-- A script of some lines. -/
def scriptOf (ls : List String) : List Char := join ['\n'] (ls.map String.toList)

/-- The handler of a slider is read across blank lines and comments. -/
theorem unnumbered_looseGainLines : ∃ cs, candidatesOf (scriptOf gainLines) = .ok cs ∧
    cs.map (fun c => (c.id?, c.line)) = [(some "a", 3)] ∧
    ∃ cs', candidatesOf (scriptOf looseGainLines) = .ok cs' ∧
      cs'.map Candidate.unnumbered = cs.map Candidate.unnumbered := by
  have hids : (candidatesOf (scriptOf gainLines)).toOption.map
      (List.map fun c => (c.id?, c.line)) = some [(some "a", 3)] := by
    decide +kernel
  obtain ⟨cs, hcs, hids⟩ := exists_of_toOption_map hids
  have hrelaid : Relaid (Text.lines (scriptOf gainLines))
      (Text.lines (scriptOf looseGainLines)) := by
    have hlines : Text.lines (scriptOf gainLines) = gainLines.map String.toList ∧
        Text.lines (scriptOf looseGainLines) = looseGainLines.map String.toList := by
      decide +kernel
    rw [hlines.1, hlines.2]
    have hnote : ∀ l ∈ ["-- the gain".toList, "  -- follows: UiPop()".toList],
        (afterWord? "--".toList (trim l)).isSome = true ∧ Marker.read l = .ok none ∧
          Shape.isDrawLater (trim l) = false := by
      decide +kernel
    refine .noise ?_ <| .line ?_ <| .noise ?_ <| .line ?_ <| .line ?_ <| .noise ?_ <| .noise ?_ <|
      .line ?_ <| .line ?_ .nil
    · obtain ⟨hcomment, hmarker, hdraw⟩ := hnote _ List.mem_cons_self
      exact .comment hcomment hmarker hdraw
    · decide +kernel
    · exact .blank (by decide)
    · decide +kernel
    · decide +kernel
    · exact .blank (by decide)
    · obtain ⟨hcomment, hmarker, hdraw⟩ := hnote _ (List.mem_cons_of_mem _ List.mem_cons_self)
      exact .comment hcomment hmarker hdraw
    · decide +kernel
    · decide +kernel
  exact ⟨cs, hcs, hids, unnumbered_of_relaid hrelaid hcs⟩

end SceneScript
