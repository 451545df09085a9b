import SceneScript.Proofs.Script.Carried

/-!
# Line numbers

The reader hands the number of a line on to the candidates found there and does nothing else with
it. So reading and forgetting the numbers is the same as reading without numbers, statement by
statement (`step_unnumbered`) and line by line (`readLine_unnumbered`).

Main statement: the candidates of a script without their numbers are what is found by reading its
lines without numbers (`unnumbered_candidatesOf`).
-/

namespace SceneScript

open Lua Text

/-! ## Candidates without numbers -/

namespace Candidate

/-- A candidate without the number of its line. -/
def unnumbered (c : Candidate) : Candidate := { c with line := 0 }

theorem unnumbered_withHandler (c : Candidate) (shape : Shape) (handler? : Option (List Char)) :
    (c.withHandler shape handler?).unnumbered = c.unnumbered.withHandler shape handler? := by
  unfold withHandler
  cases shape.handler? with
  | none => rfl
  | some key =>
    cases handler? with
    | none => rfl
    | some handler =>
      have hderives : c.unnumbered.derives key handler = c.derives key handler := rfl
      dsimp only
      rw [hderives]
      split <;> rfl

theorem unnumbered_ofCall (bindings : Lua.Bindings) (shape : Shape) (call : Call)
    (marker? : Option Marker) (x y : Num) (line : ℕ) :
    (ofCall bindings shape call marker? x y line).unnumbered =
      ofCall bindings shape call marker? x y 0 :=
  unnumbered_withHandler ..

end Candidate

/-! ## Reading without numbers -/

namespace ReaderState

/-- The reader with the candidates found so far without their numbers. -/
def unnumbered (r : ReaderState) : ReaderState := { r with found := r.found.map .unnumbered }

theorem unnumbered_pop (r : ReaderState) : r.pop.unnumbered = r.unnumbered.pop := by
  unfold pop
  cases hr : r.around with
  | nil => simp [unnumbered, hr]
  | cons c cs => simp [unnumbered, hr]

variable (bindings : Lua.Bindings) (n : ℕ)

theorem unnumbered_recognize (r : ReaderState) (σ : List Char) :
    (r.recognize bindings n σ).unnumbered = r.unnumbered.recognize bindings 0 σ := by
  unfold recognize
  cases matchStatement? σ with
  | none => rfl
  | some p =>
    simp only [unnumbered, List.map_cons, Candidate.unnumbered_ofCall]

theorem unnumbered_giveHandler (r : ReaderState) (shape : Shape) (handler : List Char) :
    (r.giveHandler shape handler).unnumbered = r.unnumbered.giveHandler shape handler := by
  unfold giveHandler
  cases hr : r.found with
  | nil => simp [unnumbered, hr]
  | cons c cs => simp [unnumbered, hr, Candidate.unnumbered_withHandler]

theorem unnumbered_enter (r : ReaderState) (σ : List Char) :
    (r.enter bindings n σ).unnumbered = r.unnumbered.enter bindings 0 σ := by
  unfold enter
  have hcurrent : r.unnumbered.current = r.current := rfl
  rw [hcurrent]
  split
  · exact unnumbered_recognize bindings n r σ
  · dsimp only
    split
    · exact unnumbered_giveHandler _ _ _
    · exact unnumbered_recognize bindings n _ σ

theorem step_unnumbered (r : ReaderState) (σ : List Char) :
    (step bindings n r σ).map unnumbered = step bindings 0 r.unnumbered σ := by
  unfold step
  split
  · rfl
  · split
    · exact congrArg Except.ok (unnumbered_pop r)
    · split
      · next arguments _ =>
        have hcurrent : r.unnumbered.current = r.current := rfl
        rw [hcurrent]
        cases r.current.move bindings arguments with
        | error e => rfl
        | ok c => rfl
      · have haround : r.unnumbered.around = r.around := rfl
        rw [haround]
        refine congrArg Except.ok ?_
        split
        · rfl
        · exact unnumbered_enter bindings n r σ

theorem readLine_unnumbered (r : ReaderState) (l : Line) :
    (readLine bindings r l n).map unnumbered = readLine bindings r.unnumbered l 0 := by
  unfold readLine
  cases LineContent.ofLine l with
  | error e => rfl
  | ok content =>
    cases content with
    | marker m => rfl
    | statements σs =>
      have hfold := map_foldlM (ψ := id) (step_unnumbered bindings n) σs r
      rwa [List.map_id] at hfold

theorem readLines_unnumbered (r : ReaderState) (ls : List Line) :
    (readLines bindings n r ls).map unnumbered =
      ls.foldlM (fun r l => readLine bindings r l 0) r.unnumbered := by
  induction ls generalizing n r with
  | nil => rfl
  | cons l ls ih =>
    rw [readLines, List.foldlM_cons, ← readLine_unnumbered bindings n]
    cases readLine bindings r l n with
    | error e => rfl
    | ok r' => exact ih (n + 1) r'

end ReaderState

/-- The candidates of a script without their numbers are found by reading it without numbers. -/
theorem unnumbered_candidatesOf (text : List Char) :
    (candidatesOf text).map (·.map Candidate.unnumbered) =
      ((Text.lines text).foldlM
          (fun r l => ReaderState.readLine (bindingsOf (Text.lines text)) r l 0)
          ReaderState.start).map (·.found.reverse) := by
  have hread := ReaderState.readLines_unnumbered (bindingsOf (Text.lines text)) 1
    ReaderState.start (Text.lines text)
  have hstart : ReaderState.start.unnumbered = ReaderState.start := rfl
  rw [hstart] at hread
  rw [← hread, candidatesOf]
  cases ReaderState.readLines (bindingsOf (Text.lines text)) 1 ReaderState.start
      (Text.lines text) with
  | error e => rfl
  | ok r => exact congrArg Except.ok (List.map_reverse ..)

end SceneScript
