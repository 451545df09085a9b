import SceneScript.Proofs.Number.Digits
import SceneScript.Proofs.Number.Finite

/-!
# Decimal notation reads back

A power of ten moves freely between the digits of a decimal and its exponent
(`ofDecimal_mul_pow`), so trailing zeros and the place of the point do not matter. The digits that
`shortest` answers read back as the value (`ofDecimal_shortest`), also where it falls back on the
exact expansion.

Main statements:

* `readNumeral_digits`: a finite binary64 number is read back from its shortest notation.
* `readNumeral_plain`: a script argument is read back as the number that was written, a whole value
  as a whole number.
-/

namespace SceneScript.Binary64

/-! ## Signs -/

theorem roundUnits_true (num den : ℕ) :
    roundUnits true num den = (roundUnits false num den).neg := by
  unfold roundUnits
  dsimp only
  split
  · split <;> rfl
  · split <;> rfl

/-- A sign goes through the reading of a decimal. -/
theorem ofDecimal_true (digits : ℕ) (exponent : ℤ) :
    ofDecimal true digits exponent = (ofDecimal false digits exponent).neg := by
  unfold ofDecimal
  dsimp only
  split
  · rfl
  · split
    · rfl
    · split
      · rfl
      · split <;> exact roundUnits_true _ _

theorem ofDecimal_signed {digits : ℕ} {exponent : ℤ} {mantissa shift : ℕ}
    {h : Canonical mantissa shift} (negative : Bool)
    (hd : ofDecimal false digits exponent = .finite false mantissa shift h) :
    ofDecimal negative digits exponent = .finite negative mantissa shift h := by
  cases negative with
  | false => exact hd
  | true => rw [ofDecimal_true, hd]; rfl

/-! ## Powers of ten -/

/-- The number of digits that a decimal has before its point. -/
def pointOf (digits : ℕ) (exponent : ℤ) : ℤ := exponent + (decimalDigits digits).length

/-- A decimal of moderate size is a quotient. -/
theorem ofDecimal_eq_ofRatio (negative : Bool) {digits : ℕ} {exponent : ℤ} (hd : digits ≠ 0)
    (hlow : -400 ≤ pointOf digits exponent) (hhigh : pointOf digits exponent ≤ 400) :
    ofDecimal negative digits exponent =
      ofRatio negative (digits * Nat.pow 10 exponent.toNat) (Nat.pow 10 (-exponent).toNat) := by
  unfold pointOf at hlow hhigh
  rw [ofDecimal, if_neg hd, if_neg (by omega), if_neg (by omega)]
  split
  · next he => rw [show (-exponent).toNat = 0 by omega]
  · next he =>
    rw [show exponent.toNat = 0 by omega]
    exact congrArg (ofRatio negative · _) (Nat.mul_one digits).symm

theorem length_decimalDigits_mul_pow {digits : ℕ} (hd : digits ≠ 0) (k : ℕ) :
    (decimalDigits (digits * Nat.pow 10 k)).length = (decimalDigits digits).length + k := by
  have hpos : ∀ n, 0 < (decimalDigits n).length := fun n =>
    List.length_pos_iff.2 (decimalDigits_ne_nil n)
  refine Nat.le_antisymm ?_ ?_
  · rw [length_decimalDigits_le_iff (by have := hpos digits; omega), Nat.pow_add, Nat.pow_eq]
    exact Nat.mul_lt_mul_of_pos_right ((length_decimalDigits_le_iff (hpos digits)).1 le_rfl)
      (Nat.pow_pos (by decide))
  · by_contra hlt
    -- fewer digits would make the number smaller than its leading digit says
    obtain ⟨m, hm⟩ : ∃ m, (decimalDigits digits).length = m + 1 := ⟨_, (Nat.succ_pred_eq_of_pos
      (hpos digits)).symm⟩
    have hbig : 10 ^ m ≤ digits := by
      by_contra h
      rcases Nat.eq_zero_or_pos m with rfl | hm0
      · simp only [Nat.pow_zero] at h
        omega
      · have := (length_decimalDigits_le_iff hm0).2 (Nat.lt_of_not_le h)
        omega
    have hle : (decimalDigits (digits * Nat.pow 10 k)).length ≤ m + k := by omega
    rcases Nat.eq_zero_or_pos (m + k) with h0 | h0
    · have := hpos (digits * Nat.pow 10 k)
      omega
    · have := (length_decimalDigits_le_iff h0).1 hle
      rw [Nat.pow_add, Nat.pow_eq] at this
      exact absurd (Nat.mul_le_mul_right (10 ^ k) hbig) (Nat.not_le_of_lt this)

/-- A power of ten may stand in the digits of a decimal or in its exponent. -/
theorem ofDecimal_mul_pow (negative : Bool) (digits k : ℕ) (exponent : ℤ) :
    ofDecimal negative (digits * Nat.pow 10 k) exponent =
      ofDecimal negative digits (exponent + k) := by
  rcases Nat.eq_zero_or_pos digits with rfl | hpos
  · rw [Nat.zero_mul, ofDecimal, if_pos rfl, ofDecimal, if_pos rfl]
  have hd : digits ≠ 0 := hpos.ne'
  have hdk : digits * Nat.pow 10 k ≠ 0 := Nat.mul_ne_zero hd (Nat.pow_pos (by decide)).ne'
  have hpoint : pointOf (digits * Nat.pow 10 k) exponent = pointOf digits (exponent + k) := by
    rw [pointOf, pointOf, length_decimalDigits_mul_pow hd]
    push_cast
    ring
  by_cases hhigh : 400 < pointOf digits (exponent + k)
  · have hhigh' := hhigh
    rw [← hpoint] at hhigh'
    unfold pointOf at hhigh hhigh'
    rw [ofDecimal, if_neg hdk, if_pos hhigh', ofDecimal, if_neg hd, if_pos hhigh]
  by_cases hlow : pointOf digits (exponent + k) < -400
  · have hlow' := hlow
    rw [← hpoint] at hlow' hhigh
    unfold pointOf at hlow hlow'
    rw [ofDecimal, if_neg hdk, if_neg (by omega), if_pos hlow', ofDecimal, if_neg hd,
      if_neg (by omega), if_pos hlow]
  rw [ofDecimal_eq_ofRatio negative hdk (by omega) (by omega),
    ofDecimal_eq_ofRatio negative hd (by omega) (by omega)]
  refine ofRatio_eq_of_mul_eq (Nat.pow_pos (by decide)) (Nat.pow_pos (by decide)) ?_
  simp only [Nat.pow_eq, Nat.mul_assoc, ← Nat.pow_add]
  congr 2
  omega

/-! ## The shortest digits -/

theorem magnitude_ne_zero {mantissa shift : ℕ} (hm : mantissa ≠ 0) : magnitude mantissa shift ≠ 0 :=
  Nat.mul_ne_zero hm (two_pow_pos shift).ne'

/-- The exact expansion of a magnitude reads back. -/
theorem ofDecimal_expansion {mantissa shift : ℕ} (hm : mantissa ≠ 0)
    (h : Canonical mantissa shift) :
    ofDecimal false (magnitude mantissa shift * Nat.pow 5 1074) (-1074) =
      .finite false mantissa shift h := by
  have hle := magnitude_le h
  have hpos : 0 < magnitude mantissa shift := Nat.pos_of_ne_zero (magnitude_ne_zero hm)
  rw [← roundUnits_magnitude false h]
  generalize magnitude mantissa shift = u at hle hpos ⊢
  have hfive : Nat.pow 10 750 ≤ Nat.pow 5 1074 := by decide +kernel
  have htop : (Nat.pow 2 53 - 1) * Nat.pow 2 2045 * Nat.pow 5 1074 < Nat.pow 10 1400 := by
    decide +kernel
  have hlow : Nat.pow 10 750 ≤ u * Nat.pow 5 1074 := hfive.trans (Nat.le_mul_of_pos_left _ hpos)
  have hhigh : u * Nat.pow 5 1074 < Nat.pow 10 1400 := (Nat.mul_le_mul_right _ hle).trans_lt htop
  have hprod : u * Nat.pow 5 1074 * one = u * Nat.pow 10 1074 := by
    have : Nat.pow 5 1074 * one = Nat.pow 10 1074 := by decide +kernel
    rw [Nat.mul_assoc, this]
  have hten : 0 < Nat.pow 10 1074 := Nat.pow_pos (by decide)
  have hlen : (decimalDigits (u * Nat.pow 5 1074)).length ≤ 1400 :=
    (length_decimalDigits_le_iff (by decide)).2 hhigh
  have hlen' : 750 < (decimalDigits (u * Nat.pow 5 1074)).length := by
    by_contra hlt
    exact absurd ((length_decimalDigits_le_iff (by decide)).1 (Nat.le_of_not_lt hlt))
      (Nat.not_lt_of_le hlow)
  have hv : u * Nat.pow 5 1074 ≠ 0 := (Nat.mul_pos hpos (Nat.pow_pos (by decide))).ne'
  generalize u * Nat.pow 5 1074 = v at hprod hlen hlen' hv ⊢
  rw [ofDecimal_eq_ofRatio false hv (by unfold pointOf; omega) (by unfold pointOf; omega)]
  refine roundUnits_eq_of_mul_eq hten Nat.one_pos ?_
  rw [show Nat.pow 10 (-1074 : ℤ).toNat = 1 from rfl, Nat.mul_one, Nat.mul_one, hprod]
  rfl

theorem neighbour?_eq {x : Binary64} {units d : ℕ} {exponent : ℤ}
    (h : neighbour? x units exponent = some d) : ofDecimal false d exponent = x := by
  unfold neighbour? at h
  extract_lets num den low nearest other at h
  clear_value nearest other
  split at h
  · next hd => rwa [Option.some.inj h] at hd
  · split at h
    · next hd => rwa [Option.some.inj h] at hd
    · simp at h

/-- The shortest digits of a positive value read back as the value. -/
theorem ofDecimal_shortest {mantissa shift : ℕ} (hm : mantissa ≠ 0)
    (h : Canonical mantissa shift) :
    ofDecimal false (shortest mantissa shift h).1 (shortest mantissa shift h).2 =
      .finite false mantissa shift h := by
  unfold shortest
  extract_lets units top x attempt
  cases hs : (List.range 17).findSome? attempt with
  | none => exact ofDecimal_expansion hm h
  | some r =>
    obtain ⟨n, -, hn⟩ := List.exists_of_findSome?_eq_some hs
    obtain ⟨d, hd, rfl⟩ := Option.map_eq_some_iff.1 hn
    exact neighbour?_eq hd

end SceneScript.Binary64

namespace SceneScript

/-! ## Notation -/

open Numeral

/-- What a text reads back as, once it is known to be a numeral. -/
theorem readNumeral_of_ofText {s : List Char} {n : Numeral} (ht : Text.trim s = s)
    (h : ofText s = some n) : readNumeral s = some n.toNum := by
  rw [readNumeral, ht, h, Option.map_some]

/-- Digits without the zeros at their end. -/
def significant (ds : List Char) : List Char := (ds.reverse.dropWhile (· == '0')).reverse

theorem significant_append_zeros (ds : List Char) : ∃ k, ds = significant ds ++ zeros k := by
  refine ⟨(ds.reverse.takeWhile (· == '0')).length, ?_⟩
  have hz : ds.reverse.takeWhile (· == '0') =
      zeros (ds.reverse.takeWhile (· == '0')).length :=
    List.eq_replicate_iff.2 ⟨rfl, fun c hc => by simpa using List.mem_takeWhile_imp hc⟩
  have hsplit := congrArg List.reverse
    (List.takeWhile_append_dropWhile (p := (· == '0')) (l := ds.reverse))
  rw [List.reverse_append, List.reverse_reverse, hz, zeros, List.reverse_replicate] at hsplit
  exact hsplit.symm

theorem isDigit_of_mem_zeros {n : ℕ} {c : Char} (h : c ∈ zeros n) : c.isDigit = true := by
  rw [List.eq_of_mem_replicate h]
  decide

/-- A numeral that has a point or an exponent, in parts and without its sign. -/
structure NumeralParts where
  /-- The digits before the point. -/
  whole : List Char
  /-- The digits after the point. -/
  fraction : Option (List Char)
  /-- The exponent, with its sign. -/
  exponent : Option (Bool × List Char)
  whole_ne : whole ≠ []
  whole_lead : whole.head? = some '0' → whole = ['0']
  isDigit_whole : ∀ c ∈ whole, c.isDigit = true
  fraction_ne : ∀ f ∈ fraction, f ≠ []
  isDigit_fraction : ∀ f ∈ fraction, ∀ c ∈ f, c.isDigit = true
  exponent_ne : ∀ e ∈ exponent, e.2 ≠ []
  isDigit_exponent : ∀ e ∈ exponent, ∀ c ∈ e.2, c.isDigit = true
  isSome : fraction.isSome = true ∨ exponent.isSome = true

namespace NumeralParts

/-- The text of a numeral. -/
def text (p : NumeralParts) : List Char :=
  p.whole ++ (fractionText p.fraction ++ exponentText p.exponent)

/-- The value of a numeral, with a sign. -/
def value (p : NumeralParts) (negative : Bool) : Binary64 :=
  Binary64.ofDecimal negative (Text.natOfDigits (p.whole ++ p.fraction.getD []))
    ((p.exponent.map exponentValue).getD 0 - (p.fraction.getD []).length)

theorem mem_exponentText {e : Option (Bool × List Char)}
    (he : ∀ p ∈ e, ∀ c ∈ p.2, c.isDigit = true) {c : Char} (h : c ∈ exponentText e) :
    c.isDigit = true ∨ c ∈ ['e', '-', '+', '.'] := by
  cases e with
  | none => simp [exponentText] at h
  | some p =>
    obtain ⟨negative, digits⟩ := p
    rcases List.mem_cons.1 h with rfl | h
    · exact .inr (by decide)
    rcases List.mem_cons.1 h with rfl | h
    · cases negative <;> exact .inr (by decide)
    · exact .inl (he _ rfl c h)

/-- The characters of a numeral. -/
theorem mem_text (p : NumeralParts) {c : Char} (h : c ∈ p.text) :
    c.isDigit = true ∨ c ∈ ['e', '-', '+', '.'] := by
  rw [text, List.mem_append, List.mem_append] at h
  rcases h with h | h | h
  · exact .inl (p.isDigit_whole c h)
  · cases hf : p.fraction with
    | none => simp [hf, fractionText] at h
    | some f =>
      rw [hf] at h
      rcases List.mem_cons.1 h with rfl | h
      · exact .inr (by decide)
      · exact .inl (p.isDigit_fraction f hf c h)
  · exact mem_exponentText p.isDigit_exponent h

theorem isBlank_of_mem_text (p : NumeralParts) {c : Char} (h : c ∈ p.text) :
    Text.isBlank c = false := by
  have hmarks : ∀ d ∈ ['e', '-', '+', '.'], Text.isBlank d = false := by decide
  rcases p.mem_text h with h | h
  · exact isBlank_of_isDigit h
  · exact hmarks c h

theorem tight_text (p : NumeralParts) (negative : Bool) :
    Text.Tight (signText negative ++ p.text) := by
  refine Text.Tight.of_forall (by simp [text, p.whole_ne]) fun c hc => ?_
  rcases List.mem_append.1 hc with hc | hc
  · cases negative with
    | true => rw [List.mem_singleton.1 hc]; decide
    | false => simp [signText] at hc
  · exact p.isBlank_of_mem_text hc

/-- A numeral with a point or an exponent is read as a binary64 number. -/
theorem readNumeral_text (p : NumeralParts) (negative : Bool) :
    readNumeral (signText negative ++ p.text) = some (.double (p.value negative)) := by
  have hdigit : ∀ {c : Char}, c.isDigit = true → Text.isDigit c = true := Text.isDigit_of_isDigit
  rw [readNumeral_of_ofText (p.tight_text negative).trim (ofText_written negative p.whole_ne
    (fun c hc => hdigit (p.isDigit_whole c hc))
    (fun f hf c hc => hdigit (p.isDigit_fraction f hf c hc))
    (fun e he => ⟨p.exponent_ne e he, fun c hc => hdigit (p.isDigit_exponent e he c hc)⟩)),
    Numeral.toNum, if_neg]
  · rfl
  · rcases p.isSome with h | h
    · obtain ⟨_, hf⟩ := Option.isSome_iff_exists.1 h
      simp [Numeral.isWhole, hf]
    · obtain ⟨_, he⟩ := Option.isSome_iff_exists.1 h
      simp [Numeral.isWhole, he]

/-- The digits of a numeral without exponent. -/
def ofDigits (whole fraction : List Char) (hne : whole ≠ [])
    (hlead : whole.head? = some '0' → whole = ['0']) (hfne : fraction ≠ [])
    (hw : ∀ c ∈ whole, c.isDigit = true) (hf : ∀ c ∈ fraction, c.isDigit = true) :
    NumeralParts where
  whole := whole
  fraction := some fraction
  exponent := none
  whole_ne := hne
  whole_lead := hlead
  isDigit_whole := hw
  fraction_ne := fun _ h => Option.some.inj h ▸ hfne
  isDigit_fraction := fun _ h => Option.some.inj h ▸ hf
  exponent_ne := by simp
  isDigit_exponent := by simp
  isSome := .inl rfl

/-- That a numeral is a notation of `digits · 10 ^ exponent`. -/
def Writes (p : NumeralParts) (digits : ℕ) (exponent : ℤ) : Prop :=
  ∀ negative, p.value negative = Binary64.ofDecimal negative digits exponent

section Notation

variable {ds : List Char} (hne : ds ≠ []) (hlead : ds.head? ≠ some '0')
  (hd : ∀ c ∈ ds, c.isDigit = true) (point : ℤ)

include hne hlead hd

/-- Positional notation is a numeral of the value. -/
theorem exists_positional : ∃ p : NumeralParts, positional ds point = p.text ∧
    p.Writes (Text.natOfDigits ds) (point - ds.length) := by
  by_cases hp : point ≤ 0
  · have hfraction : ∀ c ∈ zeros (-point).toNat ++ ds, c.isDigit = true := fun c hc =>
      (List.mem_append.1 hc).elim isDigit_of_mem_zeros (hd c)
    refine ⟨ofDigits ['0'] (zeros (-point).toNat ++ ds) (by simp) (fun _ => rfl) (by simp [hne])
      (by decide) hfraction, ?_, fun negative => ?_⟩
    · simp [positional, hp, text, ofDigits, fractionText, exponentText]
    · have hvalue : Text.natOfDigits (['0'] ++ (zeros (-point).toNat ++ ds)) =
          Text.natOfDigits ds := by
        rw [Text.natOfDigits_append, Text.natOfDigits_append, Text.natOfDigits_zeros]
        simp [show Text.natOfDigits ['0'] = 0 from rfl]
      have hlength : (zeros (-point).toNat ++ ds).length = (-point).toNat + ds.length := by
        simp [zeros]
      simp only [value, ofDigits, Option.getD_some, Option.map_none, Option.getD_none, hvalue,
        hlength]
      congr 1
      omega
  by_cases hlen : point.toNat < ds.length
  · -- the point stands among the digits
    have hwhole : ds.take point.toNat ≠ [] := fun h =>
      (List.take_eq_nil_iff.1 h).elim (by omega) hne
    have hhead : (ds.take point.toNat).head? = ds.head? := by
      rw [List.head?_take, if_neg (by omega)]
    have hdrop : ds.drop point.toNat ≠ [] := by simpa using hlen
    refine ⟨ofDigits (ds.take point.toNat) (ds.drop point.toNat) hwhole
      (fun h => absurd (hhead.symm.trans h) hlead) hdrop
      (fun c hc => hd c (List.mem_of_mem_take hc)) (fun c hc => hd c (List.mem_of_mem_drop hc)),
      ?_, fun negative => ?_⟩
    · have hempty : (ds.drop point.toNat).isEmpty = false := by simpa using hlen
      simp [positional, hp, hempty, text, ofDigits, fractionText, exponentText, zeros, hlen.le]
    · simp only [value, ofDigits, Option.getD_some, List.take_append_drop, Option.map_none,
        Option.getD_none, List.length_drop]
      congr 1
      omega
  · -- zeros fill the place up to the point, and one follows it
    obtain ⟨k, hk⟩ : ∃ k : ℕ, point = (ds.length + k : ℕ) := ⟨point.toNat - ds.length, by omega⟩
    subst hk
    have hwhole : ∀ c ∈ ds ++ zeros k, c.isDigit = true := fun c hc =>
      (List.mem_append.1 hc).elim (hd c) isDigit_of_mem_zeros
    have hhead : (ds ++ zeros k).head? = ds.head? := List.head?_append_of_ne_nil _ hne
    refine ⟨ofDigits (ds ++ zeros k) ['0'] (by simp [hne])
      (fun h => absurd (hhead.symm.trans h) hlead) (by simp) hwhole (by decide), ?_,
      fun negative => ?_⟩
    · rw [positional, if_neg hp, Int.toNat_natCast]
      simp [text, ofDigits, fractionText, exponentText, List.take_of_length_le,
        List.drop_eq_nil_of_le]
    · have hvalue : Text.natOfDigits (ds ++ zeros k ++ ['0']) =
          Text.natOfDigits ds * Nat.pow 10 (k + 1) := by
        have hzeros : zeros k ++ ['0'] = zeros (k + 1) := List.replicate_succ'.symm
        rw [List.append_assoc, hzeros, Text.natOfDigits_append, Text.natOfDigits_zeros, zeros,
          List.length_replicate]
        rfl
      simp only [value, ofDigits, Option.getD_some, hvalue, Option.map_none, Option.getD_none,
        List.length_singleton, Binary64.ofDecimal_mul_pow]
      congr 1
      push_cast
      ring

/-- Notation with an exponent is a numeral of the value. -/
theorem exists_scientific : ∃ p : NumeralParts, scientific ds point = p.text ∧
    p.Writes (Text.natOfDigits ds) (point - ds.length) := by
  obtain ⟨d, rest, rfl⟩ := List.exists_cons_of_ne_nil hne
  let size := decimalDigits (point - 1).natAbs
  let e : Bool × List Char := (decide (point - 1 < 0), zeros (2 - size.length) ++ size)
  let fraction : Option (List Char) := if rest = [] then none else some rest
  have hfraction : fraction.getD [] = rest := by
    by_cases hr : rest = [] <;> simp [fraction, hr]
  let p : NumeralParts :=
    { whole := [d]
      fraction := fraction
      exponent := some e
      whole_ne := by simp
      whole_lead := fun h => by simpa using h
      fraction_ne := fun f hf => by
        by_cases hr : rest = []
        · simp [fraction, hr] at hf
        · obtain rfl : rest = f := by simpa [fraction, hr] using hf
          exact hr
      isDigit_whole := fun c hc => hd c (by rw [List.mem_singleton.1 hc]; exact List.mem_cons_self)
      isDigit_fraction := fun f hf c hc => by
        have hr : rest = f := by
          rw [← hfraction]
          simp [Option.mem_def.1 hf]
        exact hd c (List.mem_cons_of_mem _ (hr ▸ hc))
      exponent_ne := fun q hq => by
        obtain rfl : e = q := Option.some.inj hq
        simp [e, size, decimalDigits_ne_nil]
      isDigit_exponent := fun q hq c hc => by
        obtain rfl : e = q := Option.some.inj hq
        exact (List.mem_append.1 hc).elim isDigit_of_mem_zeros isDigit_of_mem_decimalDigits
      isSome := .inr rfl }
  refine ⟨p, ?_, fun negative => ?_⟩
  · by_cases hr : rest = []
    · subst hr
      simp [scientific, p, text, fraction, fractionText, exponentText, e, size]
    · have hlt : 0 < rest.length := List.length_pos_iff.2 hr
      simp [scientific, p, text, fraction, hr, hlt, fractionText, exponentText, e, size]
  · have he : exponentValue e = point - 1 := by
      have hsize : Text.natOfDigits (zeros (2 - size.length) ++ size) = (point - 1).natAbs := by
        rw [Text.natOfDigits_append, Text.natOfDigits_zeros, natOfDigits_decimalDigits]
        omega
      rw [exponentValue, hsize]
      by_cases hp : point - 1 < 0
      · simp only [e, hp, decide_true, if_true]
        omega
      · simp only [e, hp, decide_false, Bool.false_eq_true, if_false]
        omega
    simp only [value, p, hfraction, Option.map_some, Option.getD_some, he, List.singleton_append,
      List.length_cons]
    congr 1
    push_cast
    ring

theorem exists_decimalText : ∃ p : NumeralParts, decimalText ds point = p.text ∧
    p.Writes (Text.natOfDigits ds) (point - ds.length) := by
  unfold decimalText
  split
  · exact exists_positional hne hlead hd point
  · exact exists_scientific hne hlead hd point

end Notation

/-- The notation of a finite binary64 number is a numeral of its value. -/
theorem exists_digits {x : Binary64} (h : x.isFinite = true) :
    ∃ (p : NumeralParts) (negative : Bool),
      x.digits = signText negative ++ p.text ∧ p.value negative = x := by
  obtain ⟨negative, mantissa, shift, hc, rfl⟩ : ∃ n m s hc, x = .finite n m s hc := by
    cases x <;> simp_all [Binary64.isFinite]
  by_cases hm : mantissa = 0
  · subst hm
    obtain rfl : shift = 0 := hc.2.2.resolve_right (by decide)
    exact ⟨ofDigits ['0'] ['0'] (by simp) (fun _ => rfl) (by simp) (by decide) (by decide),
      negative, rfl, rfl⟩
  have hshort := Binary64.ofDecimal_shortest hm hc
  rw [Binary64.digits, if_neg hm]
  generalize Binary64.shortest mantissa shift hc = r at hshort ⊢
  obtain ⟨n, exponent⟩ := r
  obtain ⟨k, hk⟩ := significant_append_zeros (decimalDigits n)
  have hn : n = Text.natOfDigits (significant (decimalDigits n)) * Nat.pow 10 k := by
    have := natOfDigits_decimalDigits n
    rw [hk, Text.natOfDigits_append, Text.natOfDigits_zeros, zeros, List.length_replicate] at this
    exact this.symm
  have hlen : (decimalDigits n).length = (significant (decimalDigits n)).length + k := by
    conv_lhs => rw [hk]
    simp [zeros]
  have hn0 : n ≠ 0 := by
    rintro rfl
    simp only [Binary64.ofDecimal, if_true, Binary64.zero, Binary64.finite.injEq] at hshort
    exact hm hshort.2.1.symm
  have hne : significant (decimalDigits n) ≠ [] := by
    intro h0
    rw [h0, show Text.natOfDigits [] = 0 from rfl, Nat.zero_mul] at hn
    exact hn0 hn
  have hlead : (significant (decimalDigits n)).head? ≠ some '0' := by
    have hhead := head?_decimalDigits hn0
    rwa [hk, List.head?_append_of_ne_nil _ hne] at hhead
  have hdigit : ∀ c ∈ significant (decimalDigits n), c.isDigit = true := fun c hc =>
    isDigit_of_mem_decimalDigits (n := n) (by rw [hk]; exact List.mem_append_left _ hc)
  obtain ⟨p, hp, hvalue⟩ :=
    exists_decimalText hne hlead hdigit ((decimalDigits n).length + exponent)
  refine ⟨p, negative, congrArg (signText negative ++ ·) hp, ?_⟩
  rw [hn, Binary64.ofDecimal_mul_pow] at hshort
  rw [hvalue, ← Binary64.ofDecimal_signed negative hshort]
  congr 1
  rw [hlen]
  push_cast
  ring

end NumeralParts

/-! ## Numbers -/

/-- A finite binary64 number is read back from its shortest notation. -/
theorem readNumeral_digits {x : Binary64} (h : x.isFinite = true) :
    readNumeral x.digits = some (.double x) := by
  obtain ⟨p, negative, htext, hvalue⟩ := NumeralParts.exists_digits h
  rw [htext, p.readNumeral_text, hvalue]

/-- A whole number in the range of binary64 numbers has few enough digits to be read. -/
theorem length_decimalDigits_le_digitLimit {n : ℕ} (h : n < Nat.pow 2 2098) :
    (decimalDigits n).length ≤ digitLimit :=
  (length_decimalDigits_le_iff (by decide)).2
    (h.trans (by decide +kernel : Nat.pow 2 2098 < Nat.pow 10 digitLimit))

/-- A whole number that has a binary64 neighbour is short. -/
theorem Num.short_of_toDouble {v : Num} {x : Binary64} (h : v.toDouble = .ok x) : v.Short := by
  rintro n rfl
  rw [Num.toDouble_int] at h
  have hfinite : (Binary64.ofInt n).isFinite = true := by
    cases hn : Binary64.ofInt n with
    | nan => exact absurd hn (Binary64.roundUnits_ne_nan _ _ _)
    | infinite negative =>
      rw [hn] at h
      cases h
    | finite negative mantissa shift hc => rfl
  have hlt := Binary64.lt_of_excess_le (Binary64.excess_le_of_isFinite hfinite)
  refine length_decimalDigits_le_digitLimit
    ((Nat.le_mul_of_pos_right _ ?_).trans_lt (hlt.trans_le ?_))
  · exact Binary64.two_pow_pos 1074
  · rw [Nat.pow_eq, Nat.pow_eq, Nat.pow_eq, ← Nat.pow_add]

theorem Num.short_of_finite {v : Num} (h : v.Finite) : v.Short := by
  obtain ⟨x, hx, -⟩ := h
  exact Num.short_of_toDouble hx

/-- The number that a binary64 number is, kept as a whole number when it is one. -/
def Num.ofDouble (x : Binary64) : Num :=
  match x.toInt? with
  | some n => .int n
  | none => .double x

/-- A binary64 number as a script argument. -/
def plainDigits (x : Binary64) : List Char :=
  match x.toInt? with
  | some n => intDigits n
  | none => x.digits

theorem Num.plain_eq {v : Num} {x : Binary64} (hx : v.toDouble = .ok x) :
    v.plain = .ok (plainDigits x) := by
  rw [Num.plain, hx]
  rfl

/-- A script argument is read back as the number that was written. -/
theorem readNumeral_plain {x : Binary64} (hf : x.isFinite = true) :
    readNumeral (plainDigits x) = some (Num.ofDouble x) := by
  unfold Num.ofDouble plainDigits
  cases hi : x.toInt? with
  | none => exact readNumeral_digits hf
  | some n =>
    obtain ⟨u, hu, hlt⟩ := Binary64.exists_units?_of_isFinite hf
    have hn : n.natAbs < Nat.pow 2 2098 := by
      obtain rfl : n * Binary64.one = u :=
        Option.some.inj ((Binary64.units?_of_toInt? hi).symm.trans hu)
      have hone : 0 < Binary64.one := Binary64.two_pow_pos 1074
      rw [Int.natAbs_mul, Int.natAbs_natCast] at hlt
      exact (Nat.le_mul_of_pos_right n.natAbs hone).trans_lt hlt
    exact readNumeral_intDigits (length_decimalDigits_le_digitLimit hn)

end SceneScript
