import Mathlib.Data.List.Basic
import Mathlib.Tactic.Ring
import SceneScript.Number.Numeral
import SceneScript.Number.Text
import SceneScript.Proofs.Text.Blank

/-!
# Decimal digits

What a run of decimal digits writes: appending runs multiplies by a power of ten
(`natOfDigits_append`), and the digits of a number write that number
(`natOfDigits_decimalDigits`).

Main statement: a whole number of at most `digitLimit` digits is read back from its digits
(`readNumeral_intDigits`).
-/

namespace SceneScript.Text

/-! ## Runs of digits -/

theorem digitValue?_of_isDigit {c : Char} (h : c.isDigit = true) :
    digitValue? c = some (c.toNat - 0x30) := by
  simp [digitValue?, h]

theorem isDigit_of_isDigit {c : Char} (h : c.isDigit = true) : isDigit c = true := by
  simp [isDigit, digitValue?_of_isDigit h]

theorem foldl_digits (s : List Char) (n : ℕ) :
    s.foldl (fun n c => 10 * n + (digitValue? c).getD 0) n =
      n * 10 ^ s.length + natOfDigits s := by
  induction s generalizing n with
  | nil => simp [natOfDigits]
  | cons c s ih =>
    have hc : natOfDigits (c :: s) = (digitValue? c).getD 0 * 10 ^ s.length + natOfDigits s := by
      simpa [natOfDigits] using ih ((digitValue? c).getD 0)
    rw [List.foldl_cons, ih, hc, List.length_cons, pow_succ]
    ring

theorem natOfDigits_append (s t : List Char) :
    natOfDigits (s ++ t) = natOfDigits s * 10 ^ t.length + natOfDigits t := by
  have h := foldl_digits t (natOfDigits s)
  rwa [natOfDigits, ← List.foldl_append] at h

theorem natOfDigits_zeros (n : ℕ) : natOfDigits (zeros n) = 0 := by
  induction n with
  | zero => rfl
  | succ n ih =>
    have hzero : natOfDigits ['0'] = 0 := by decide
    rw [zeros, List.replicate_succ, ← List.singleton_append, natOfDigits_append, hzero,
      Nat.zero_mul, Nat.zero_add]
    exact ih

theorem digitValue?_getD_lt (c : Char) : (digitValue? c).getD 0 < 10 := by
  unfold digitValue?
  split
  · next h =>
    have hc : c.toNat ≤ '9'.toNat := by
      simp only [Char.isDigit, Bool.and_eq_true, decide_eq_true_eq] at h
      exact h.2
    have hnine : '9'.toNat = 57 := rfl
    rw [Option.getD_some]
    omega
  · split
    · decide
    · cases hfind : digitZeros.find? (fun z => z ≤ c.toNat && c.toNat < z + 10) with
      | none => exact Nat.zero_lt_succ 9
      | some z =>
        have hz := List.find?_some hfind
        simp only [Bool.and_eq_true, decide_eq_true_eq] at hz
        rw [Option.map_some, Option.getD_some]
        omega

/-- A run of digits writes a number with no more digits. -/
theorem natOfDigits_lt_pow (s : List Char) : natOfDigits s < 10 ^ s.length := by
  induction s with
  | nil => decide
  | cons c s ih =>
    have hc := digitValue?_getD_lt c
    have hsplit : natOfDigits (c :: s) =
        (digitValue? c).getD 0 * 10 ^ s.length + natOfDigits s := by
      simpa [natOfDigits] using foldl_digits s ((digitValue? c).getD 0)
    rw [hsplit, List.length_cons, pow_succ]
    calc (digitValue? c).getD 0 * 10 ^ s.length + natOfDigits s
        < (digitValue? c).getD 0 * 10 ^ s.length + 10 ^ s.length := Nat.add_lt_add_left ih _
      _ = ((digitValue? c).getD 0 + 1) * 10 ^ s.length := (Nat.succ_mul _ _).symm
      _ ≤ 10 * 10 ^ s.length := Nat.mul_le_mul_right _ hc
      _ = 10 ^ s.length * 10 := Nat.mul_comm _ _

theorem natOfDigits_of_isDigit {s : List Char} (h : ∀ c ∈ s, c.isDigit = true) :
    natOfDigits s = Nat.ofDigitChars 10 s 0 := by
  rw [natOfDigits, Nat.ofDigitChars_eq_foldl]
  refine List.foldl_ext _ _ 0 fun n c hc => ?_
  rw [digitValue?_of_isDigit (h c hc)]
  rfl

end SceneScript.Text

namespace SceneScript

theorem isDigit_of_mem_decimalDigits {n : ℕ} {c : Char} (h : c ∈ decimalDigits n) :
    c.isDigit = true :=
  Nat.isDigit_of_mem_toDigits (by decide) (by decide) h

/-- The digits of a number write that number. -/
theorem natOfDigits_decimalDigits (n : ℕ) : Text.natOfDigits (decimalDigits n) = n := by
  rw [Text.natOfDigits_of_isDigit fun c hc => isDigit_of_mem_decimalDigits hc]
  exact Nat.ofDigitChars_ten_toDigits

theorem decimalDigits_ne_nil (n : ℕ) : decimalDigits n ≠ [] := Nat.toDigits_ne_nil

theorem length_decimalDigits_le_iff {n k : ℕ} (hk : 0 < k) :
    (decimalDigits n).length ≤ k ↔ n < 10 ^ k :=
  Nat.length_toDigits_le_iff (by decide) hk

/-- A run of digits that is not too long writes a number that is not. -/
theorem length_decimalDigits_natOfDigits {s : List Char} (h : s.length ≤ digitLimit) :
    (decimalDigits (Text.natOfDigits s)).length ≤ digitLimit :=
  (length_decimalDigits_le_iff (by decide)).2
    ((Text.natOfDigits_lt_pow s).trans_le (Nat.pow_le_pow_right (by decide) h))

/-- Only zero starts with a zero. -/
theorem head?_decimalDigits {n : ℕ} (h : n ≠ 0) : (decimalDigits n).head? ≠ some '0' := by
  induction n using Nat.strong_induction_on with
  | _ n ih =>
    rw [decimalDigits, Nat.toDigits_eq_if (by decide)]
    split
    · simpa using h
    · next hten =>
      have hhead := ih (n / 10) (by omega) (by omega)
      rwa [List.head?_append_of_ne_nil _ Nat.toDigits_ne_nil]

/-- The digits that follow an optional minus sign in the notation of a whole number. -/
theorem intDigits_eq (n : ℤ) :
    intDigits n = (if n < 0 then ['-'] else []) ++ decimalDigits n.natAbs := by
  unfold intDigits
  split <;> rfl

theorem mem_intDigits {n : ℤ} {c : Char} (h : c ∈ intDigits n) : c = '-' ∨ c.isDigit = true := by
  rw [intDigits_eq, List.mem_append] at h
  refine h.imp (fun h => ?_) isDigit_of_mem_decimalDigits
  by_cases hn : n < 0 <;> simp_all

end SceneScript

namespace SceneScript.Numeral

/-! ## Numerals -/

theorem takeDigits_append {ds rest : List Char} (hd : ∀ c ∈ ds, Text.isDigit c = true)
    (hr : ∀ c ∈ rest.head?, Text.isDigit c = false) : takeDigits (ds ++ rest) = (ds, rest) := by
  induction ds with
  | nil =>
    cases rest with
    | nil => rfl
    | cons c rest => simp [takeDigits, hr c rfl]
  | cons c ds ih =>
    have ih := ih fun d hd' => hd d (List.mem_cons_of_mem _ hd')
    simp only [takeDigits, Prod.mk.injEq] at ih
    simp [takeDigits, hd c List.mem_cons_self, ih.1, ih.2]

/-- A sign, as it stands before digits. -/
def signText (negative : Bool) : List Char := if negative then ['-'] else []

/-- A fraction, as it stands behind the digits before the point. -/
def fractionText : Option (List Char) → List Char
  | none => []
  | some digits => '.' :: digits

/-- An exponent, as it stands at the end of a numeral: a sign that is always there, and digits. -/
def exponentText : Option (Bool × List Char) → List Char
  | none => []
  | some (negative, digits) => 'e' :: (if negative then '-' else '+') :: digits

/-- The power of ten that an exponent writes. -/
def exponentValue (e : Bool × List Char) : ℤ :=
  if e.1 then -(Text.natOfDigits e.2 : ℤ) else Text.natOfDigits e.2

theorem takeSign_signText (negative : Bool) {s : List Char}
    (h : ∀ c ∈ s.head?, Text.isDigit c = true) :
    takeSign (signText negative ++ s) = (negative, s) := by
  cases negative with
  | true => rfl
  | false =>
    cases s with
    | nil => rfl
    | cons c s =>
      have hc := h c rfl
      have h₁ : c ≠ '-' := by rintro rfl; exact absurd hc (by decide)
      have h₂ : c ≠ '+' := by rintro rfl; exact absurd hc (by decide)
      simp only [signText, Bool.false_eq_true, if_false, List.nil_append]
      unfold takeSign
      split <;> simp_all

theorem takeExponent_exponentText (e : Option (Bool × List Char))
    (h : ∀ p ∈ e, p.2 ≠ [] ∧ ∀ c ∈ p.2, Text.isDigit c = true) :
    takeExponent (exponentText e) = (e.map exponentValue, []) := by
  cases e with
  | none => rfl
  | some p =>
    obtain ⟨negative, digits⟩ := p
    obtain ⟨hne, hd⟩ := h _ rfl
    have htake : takeDigits (digits ++ []) = (digits, []) := takeDigits_append hd (by simp)
    rw [List.append_nil] at htake
    have hempty : digits.isEmpty = false := by simpa using hne
    cases negative <;> simp [exponentText, takeExponent, takeSign, htake, hempty, exponentValue]

/-- A numeral is taken apart into what it was put together from. -/
theorem ofText_written (negative : Bool) {whole : List Char} {fraction : Option (List Char)}
    {e : Option (Bool × List Char)} (hne : whole ≠ [])
    (hw : ∀ c ∈ whole, Text.isDigit c = true)
    (hf : ∀ f ∈ fraction, ∀ c ∈ f, Text.isDigit c = true)
    (he : ∀ p ∈ e, p.2 ≠ [] ∧ ∀ c ∈ p.2, Text.isDigit c = true) :
    ofText (signText negative ++ (whole ++ (fractionText fraction ++ exponentText e))) =
      some ⟨negative, whole, fraction, e.map exponentValue⟩ := by
  have hsign : ∀ c ∈ (whole ++ (fractionText fraction ++ exponentText e)).head?,
      Text.isDigit c = true := by
    intro c hc
    rw [List.head?_append, Option.or_of_isSome (by simpa using hne)] at hc
    exact hw c (List.mem_of_mem_head? hc)
  have hexp : ∀ c ∈ (exponentText e).head?, Text.isDigit c = false := by
    intro c hc
    cases e with
    | none => simp [exponentText] at hc
    | some p =>
      obtain rfl : 'e' = c := by simpa [exponentText] using hc
      decide
  have hrest : ∀ c ∈ (fractionText fraction ++ exponentText e).head?, Text.isDigit c = false := by
    cases fraction with
    | none => exact hexp
    | some f =>
      intro c hc
      obtain rfl : '.' = c := by simpa [fractionText] using hc
      decide
  have hfrac : takeFraction (fractionText fraction ++ exponentText e) =
      (fraction, exponentText e) := by
    cases fraction with
    | none =>
      simp only [fractionText, List.nil_append]
      cases e with
      | none => rfl
      | some p => rfl
    | some f =>
      simp only [fractionText, List.cons_append, takeFraction, takeDigits_append (hf f rfl) hexp]
  have hempty : whole.isEmpty = false := by simpa using hne
  simp only [ofText, takeSign_signText negative hsign, takeDigits_append hw hrest, hfrac,
    takeExponent_exponentText e he, List.isEmpty_nil, hempty, Bool.false_and, Bool.not_false,
    Bool.and_self, if_true]

end SceneScript.Numeral

namespace SceneScript

/-! ## Whole numbers -/

theorem isBlank_of_isDigit {c : Char} (h : c.isDigit = true) : Text.isBlank c = false :=
  Text.isBlank_of_isWord (Text.isWord_of_isAlphanum (by simp [Char.isAlphanum, h]))

/-- A whole number that is not too long is read back from its digits. -/
theorem readNumeral_intDigits {n : ℤ} (h : (decimalDigits n.natAbs).length ≤ digitLimit) :
    readNumeral (intDigits n) = some (.int n) := by
  have hdigits : ∀ c ∈ decimalDigits n.natAbs, Text.isDigit c = true := fun c hc =>
    Text.isDigit_of_isDigit (isDigit_of_mem_decimalDigits hc)
  have htrim : Text.trim (intDigits n) = intDigits n := by
    refine (Text.Tight.of_forall ?_ fun c hc => ?_).trim
    · rw [intDigits_eq]
      simp [decimalDigits_ne_nil]
    · rcases mem_intDigits hc with rfl | hd
      · decide
      · exact isBlank_of_isDigit hd
  have htext : intDigits n = Numeral.signText (n < 0) ++ (decimalDigits n.natAbs ++
      (Numeral.fractionText none ++ Numeral.exponentText none)) := by
    simp [intDigits_eq, Numeral.signText, Numeral.fractionText, Numeral.exponentText]
  rw [readNumeral, htrim, htext, Numeral.ofText_written (n < 0) (decimalDigits_ne_nil _) hdigits
    (by simp) (by simp)]
  simp only [Option.map_some, Option.map_none, Numeral.toNum, Numeral.isWhole, Option.isNone_none,
    Bool.true_and, h, decide_true, if_true, Numeral.toInt, natOfDigits_decimalDigits,
    Option.some.injEq, Num.int.injEq]
  by_cases hn : n < 0
  · simp only [hn, decide_true, if_true]
    omega
  · simp only [hn, decide_false]
    simp
    omega

/-! ## Short numbers -/

namespace Num

/-- That a number has few enough digits to be read, if it is a whole one. -/
def Short (v : Num) : Prop :=
  ∀ n, v = .int n → (decimalDigits n.natAbs).length ≤ digitLimit

theorem short_double (x : Binary64) : (double x).Short := nofun

theorem isShort_iff {v : Num} : v.isShort = true ↔ v.Short := by
  cases v with
  | int n => simp [isShort, Short]
  | double x => exact iff_of_true rfl (short_double x)

end Num

end SceneScript
