import SceneScript.Proofs.Lua.Closed
import SceneScript.Proofs.Number.Decimal
import SceneScript.Proofs.Scene.Readable
import SceneScript.Proofs.Script.Marker
import SceneScript.Script.Statement

/-!
# Arguments read back

Numbers, string literals and names are arguments: no scanner cuts them or reads beyond them. The
value that an argument of a readable element has in effect is described by `Format.describe`: a
text is itself, a rounded number is whole, any other number is whole if it is one.

Main statement: a value of the kind of a prop is written, and what is written is read back as
described (`Format.write_of_admits`).
-/

namespace SceneScript

open Lua

/-! ## Written numbers -/

theorem isNameChar_of_isDigit {c : Char} (h : c.isDigit = true) : isNameChar c = true :=
  isNameChar_of_isWord (Text.isWord_of_isAlphanum (by simp [Char.isAlphanum, h]))

theorem scans_of_isDigit {ds : List Char} (h : ∀ c ∈ ds, c.isDigit = true) :
    Scans isArgumentCode ds :=
  scans_of_name fun c hc => isNameChar_of_isDigit (h c hc)

theorem scans_dash_of_isDigit {ds rest : List Char} (hne : ds ≠ [])
    (h : ∀ c ∈ ds, c.isDigit = true) (hrest : Scans isArgumentCode rest) :
    Scans isArgumentCode ('-' :: (ds ++ rest)) := by
  obtain ⟨d, ds, rfl⟩ := List.exists_cons_of_ne_nil hne
  refine ((scans_of_isDigit h).append hrest).cons_dash (by decide) (List.cons_append ..) ?_
  rintro rfl
  exact absurd (h '-' List.mem_cons_self) (by decide)

theorem isArgument_intDigits (n : ℤ) : IsArgument (intDigits n) := by
  refine ⟨?_, Marker.tight_intDigits n,
    Text.flat_of_not_isBlank fun _ => Marker.isBlank_of_mem_intDigits⟩
  have hdigits : ∀ c ∈ decimalDigits n.natAbs, c.isDigit = true := fun _ =>
    isDigit_of_mem_decimalDigits
  rw [intDigits_eq]
  split_ifs
  · simpa using scans_dash_of_isDigit (decimalDigits_ne_nil _) hdigits .nil
  · exact scans_of_isDigit hdigits

theorem NumeralParts.scans_text (p : NumeralParts) (negative : Bool) :
    Scans isArgumentCode (Numeral.signText negative ++ p.text) := by
  have hfraction : Scans isArgumentCode (Numeral.fractionText p.fraction) := by
    cases hf : p.fraction with
    | none => exact .nil
    | some f =>
      exact (scans_of_isDigit (p.isDigit_fraction f hf)).cons (by decide) (by decide) (by decide)
  have hexponent : Scans isArgumentCode (Numeral.exponentText p.exponent) := by
    cases he : p.exponent with
    | none => exact .nil
    | some e =>
      obtain ⟨negative, ds⟩ := e
      have hds := p.isDigit_exponent _ he
      cases negative with
      | true =>
        have := scans_dash_of_isDigit (p.exponent_ne _ he) hds .nil
        rw [List.append_nil] at this
        exact this.cons (by decide) (by decide) (by decide)
      | false =>
        exact ((scans_of_isDigit hds).cons (c := '+') (by decide) (by decide) (by decide)).cons
          (by decide) (by decide) (by decide)
  have hrest := hfraction.append hexponent
  cases negative with
  | true =>
    have := scans_dash_of_isDigit p.whole_ne p.isDigit_whole hrest
    exact this
  | false => exact (scans_of_isDigit p.isDigit_whole).append hrest

theorem isArgument_digits {x : Binary64} (h : x.isFinite = true) : IsArgument x.digits := by
  obtain ⟨p, negative, htext, -⟩ := NumeralParts.exists_digits h
  rw [htext]
  refine ⟨p.scans_text negative, p.tight_text negative, ?_⟩
  have hsign : Text.Flat (Numeral.signText negative) := by
    unfold Text.Flat
    cases negative <;> decide
  exact Text.flat_append.2 ⟨hsign, Text.flat_of_not_isBlank fun _ => p.isBlank_of_mem_text⟩

theorem isArgument_plain {x : Binary64} (h : x.isFinite = true) : IsArgument (plainDigits x) := by
  unfold plainDigits
  split
  · exact isArgument_intDigits _
  · exact isArgument_digits h

/-! ## Arguments -/

/-- What a value in effect is read back as. -/
def Format.describe : Format → Json → Except NumberError Json
  | .quoted, v => v.text.map .str
  | .rounded, v => do
    let n ← (← v.asNumber).roundHalfUp
    return .num (.int n)
  | .number, v => do
    let x ← (← v.asNumber).toDouble
    return .num (Num.ofDouble x)

/-- The kinds of props whose values a format writes. -/
def Format.Fits : Format → PropKind → Prop
  | .quoted, k => k = .text
  | _, k => k ≠ .text

instance : ∀ (f : Format) (k : PropKind), Decidable (f.Fits k)
  | .quoted, k => inferInstanceAs (Decidable (k = .text))
  | .rounded, k => inferInstanceAs (Decidable (k ≠ .text))
  | .number, k => inferInstanceAs (Decidable (k ≠ .text))

/-- A value of a fitting kind is written, and read back as described. -/
theorem Format.write_of_admits {f : Format} {k : PropKind} (hf : f.Fits k) {v : Json}
    (hv : k.Admits v) : ∃ token v', Argument.write f (some v) = .ok token ∧
      f.describe v = .ok v' ∧ IsArgument token ∧
      ∀ bindings, Shape.argumentValue? f bindings token = some v' := by
  cases f with
  | quoted =>
    obtain rfl : k = .text := hf
    obtain ⟨s, rfl⟩ := PropKind.exists_of_admits_text hv
    refine ⟨_, _, rfl, rfl, isArgument_quote _, fun bindings => ?_⟩
    simp [Shape.argumentValue?, unquote?_quote]
  | rounded =>
    obtain ⟨n, rfl, hn⟩ := PropKind.exists_of_admits_number hf hv
    obtain ⟨m, hm, hlt⟩ := Num.roundHalfUp_of_finite hn
    have hread := readNumeral_intDigits (length_decimalDigits_le_digitLimit hlt)
    refine ⟨intDigits m, .num (.int m), ?_, ?_, isArgument_intDigits m, fun bindings => ?_⟩
    · simp [Argument.write, Json.asNumber, hm, bind, Except.bind]
      rfl
    · simp [describe, Json.asNumber, hm, bind, Except.bind]
      rfl
    · simp [Shape.argumentValue?, resolveNumber, hread]
  | number =>
    obtain ⟨n, rfl, x, hx, hfin⟩ := PropKind.exists_of_admits_number hf hv
    refine ⟨plainDigits x, .num (Num.ofDouble x), Num.plain_eq hx, ?_, isArgument_plain hfin,
      fun bindings => ?_⟩
    · simp [describe, Json.asNumber, hx, bind, Except.bind]
      rfl
    · simp [Shape.argumentValue?, resolveNumber, readNumeral_plain hfin]

end SceneScript
