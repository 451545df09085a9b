import SceneScript.Proofs.Script.Handler
import SceneScript.Proofs.Text.Lines

/-!
# Which lines can be read

A line fails to be read only if it is a marker that gives a size with more digits than are read. A
size stands in the text as it is, so every line can be read of a text that has no run of so many
digits (`Text.RunsWithin`).

Main statement: such a text has events, and its candidates are found by handling them
(`exists_eventsOf`).
-/

namespace SceneScript

open Text

/-! ## Runs of digits -/

namespace Text

/-- No run of digits of a text is longer than a limit. -/
def RunsWithin (limit : ℕ) (s : List Char) : Prop :=
  ∀ run, run <:+: s → run.all isDigit = true → run.length ≤ limit

theorem RunsWithin.of_isInfix {limit : ℕ} {s t : List Char} (h : RunsWithin limit t)
    (hs : s <:+: t) : RunsWithin limit s :=
  fun run hrun => h run (hrun.trans hs)

end Text

/-! ## Markers -/

/-- The sizes of a marker have no more digits than are read. -/
def Marker.Legible (l : Line) : Prop :=
  ∀ rest, Text.afterWord? word (Text.trim l) = some rest → ∀ key ∈ ["w", "h"],
    ∀ negative digits, signedDigits? (((fields rest).get? key).getD []) = some (negative, digits) →
      digits.length ≤ digitLimit

theorem Marker.Legible.exists_read {l : Line} (h : Legible l) :
    ∃ marker?, read l = .ok marker? := by
  unfold read
  split
  · exact ⟨none, rfl⟩
  · next rest hrest =>
    have hsize : ∀ key ∈ ["w", "h"], ∃ n?, size? (fields rest) key = .ok n? := by
      intro key hkey
      unfold size?
      split
      · exact ⟨none, rfl⟩
      · next negative digits hdigits =>
        rw [if_neg (Nat.not_lt.2 (h rest hrest key hkey negative digits hdigits))]
        exact ⟨_, rfl⟩
    obtain ⟨w?, hw⟩ := hsize "w" (by simp)
    obtain ⟨h?, hh⟩ := hsize "h" (by simp)
    unfold ofFields
    dsimp only
    split
    · exact ⟨none, rfl⟩
    · rw [hw, hh]
      exact ⟨_, rfl⟩

namespace Marker

theorem Legible.trim {l : Line} (h : Legible l) : Legible (trim l) := by
  rwa [Legible, trim_trim]

/-- The value of a field stands in the text, whatever was read of it before. -/
theorem infix_of_mem_fieldsFrom {state : FieldState} {s : List Char} :
    ∀ field ∈ fieldsFrom state s, field.2 <:+: state.read.reverse ++ s := by
  fun_induction fieldsFrom state s with
  | case1 => simp
  | case2 key value => simp [field, FieldState.read]
  | case3 word c s hword ih => exact fun f hf => (ih f hf).trans (List.suffix_cons c s).isInfix
  | case4 word c s hword hequals ih =>
    exact fun f hf => (ih f hf).trans (List.suffix_cons c s).isInfix
  | case5 word c s hword hne ih =>
    exact fun f hf => (ih f hf).trans (List.suffix_cons c s).isInfix
  | case6 key value c s hblank ih =>
    rintro f (_ | ⟨_, hf⟩)
    · exact (List.prefix_append ..).isInfix
    · exact (ih f hf).trans ((List.suffix_cons c s).trans (List.suffix_append ..)).isInfix
  | case7 key value c s hblank ih =>
    intro f hf
    simpa [FieldState.read] using ih f hf

theorem of_signedDigits? {s digits : List Char} {negative : Bool}
    (h : signedDigits? s = some (negative, digits)) :
    digits <:+ s ∧ digits.all isDigit = true := by
  have hof : ∀ {sign : Bool} {t : List Char}, t <:+ s →
      (if t ≠ [] ∧ t.all isDigit = true then some (sign, t) else none) = some (negative, digits) →
      digits <:+ s ∧ digits.all isDigit = true := by
    intro sign t hsuffix ht
    split at ht
    · next hdigits =>
      obtain ⟨-, rfl⟩ := Prod.mk.inj (Option.some.inj ht)
      exact ⟨hsuffix, hdigits.2⟩
    · cases ht
  unfold signedDigits? at h
  dsimp only at h
  split at h
  · exact hof (List.suffix_cons ..) h
  · exact hof List.suffix_rfl h

/-- A marker with digits in short runs alone is legible. -/
theorem legible_of_runsWithin {l : Line} (h : RunsWithin digitLimit l) : Legible l := by
  intro rest hrest key _ negative digits hdigits
  obtain ⟨hsuffix, hall⟩ := of_signedDigits? hdigits
  refine h digits ?_ hall
  cases hvalue : (fields rest).get? key with
  | none =>
    rw [hvalue] at hsuffix
    rw [List.suffix_nil.1 hsuffix]
    exact List.nil_infix
  | some value =>
    rw [hvalue] at hsuffix
    have hfield := infix_of_mem_fieldsFrom _ (Table.mem_of_mem_ofList (Table.mem_of_get? hvalue))
    have hrest' : rest <:+: trim l := by
      rw [append_of_afterWord? hrest]
      exact (List.suffix_append ..).isInfix
    exact hsuffix.isInfix.trans (hfield.trans (hrest'.trans (isInfix_trim l)))

end Marker

/-! ## Events -/

theorem ReaderState.LineContent.exists_ofLine {l : Line} (h : Marker.Legible l) :
    ∃ content, ofLine l = .ok content := by
  obtain ⟨marker?, hmarker⟩ := h.trim.exists_read
  unfold ofLine
  dsimp only
  split
  · rw [hmarker]
    cases marker? with
    | none => exact ⟨_, rfl⟩
    | some m => exact ⟨_, rfl⟩
  · exact ⟨_, rfl⟩

/-- A text whose lines can be read has events, and its candidates are found by handling them. -/
theorem exists_eventsOf {text : List Char} (h : ∀ l ∈ Text.lines text, Marker.Legible l) :
    ∃ es, eventsOf text = .ok es ∧ candidatesOf text =
      (es.foldlM (ReaderState.handle (bindingsOf (Text.lines text))) ReaderState.start).map
        fun r => r.found.reverse := by
  obtain ⟨contents, hcontents⟩ := exists_mapM_eq_ok.2 fun l hl =>
    ReaderState.LineContent.exists_ofLine (h l hl)
  refine ⟨numbered 1 contents, bind_eq_ok.2 ⟨contents, hcontents, rfl⟩, ?_⟩
  rw [← ReaderState.readLines_eq_foldlM (mapM_eq_ok_iff.1 hcontents)]
  rfl

end SceneScript
