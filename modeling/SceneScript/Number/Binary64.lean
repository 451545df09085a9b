/-!
# Binary64 numbers as whole multiples of one unit

Every finite binary64 number is a whole number of units of `2⁻¹⁰⁷⁴`, so a finite value is kept as
a sign, a mantissa and a shift: it is `±mantissa · 2 ^ shift` units. Sums, doublings, halvings and
conversions are computed exactly in units and rounded once, to the nearest representable value
with ties to the even mantissa.

* `roundUnits` is the only rounding step; `ofRatio`, `add`, `twice` and `half` are built on it.
* `roundUnits_shift` and `roundDiv_le` are what makes its result canonical: the mantissa has at
  most 53 bits, and all of them once the shift is positive.
* Comparison is exact, also against whole numbers of any size (`Binary64.ltInt`, `intLt`).
-/

namespace SceneScript

/-- A mantissa and a shift that name a finite value in its only way: at most 53 bits, and exactly
53 as soon as the shift is positive. -/
def Binary64.Canonical (mantissa shift : Nat) : Prop :=
  mantissa < Nat.pow 2 53 ∧ shift ≤ 2045 ∧ (shift = 0 ∨ Nat.pow 2 52 ≤ mantissa)

instance (mantissa shift : Nat) : Decidable (Binary64.Canonical mantissa shift) :=
  inferInstanceAs (Decidable (_ ∧ _ ∧ _))

/-- A binary64 number. A finite one is `±mantissa · 2 ^ shift` units of `2⁻¹⁰⁷⁴`; zero keeps its
sign. -/
inductive Binary64 where
  /-- Not a number. -/
  | nan
  /-- Plus or minus infinity. -/
  | infinite (negative : Bool)
  /-- A finite number, zero included. -/
  | finite (negative : Bool) (mantissa shift : Nat)
      (canonical : Binary64.Canonical mantissa shift)
  deriving DecidableEq

namespace Binary64

/-! ## Rounding a quotient -/

/-- The quotient `num / den` rounded to the nearest natural number, a tie to the even one. -/
def roundDiv (num den : Nat) : Nat :=
  let q := num / den
  let r := num % den
  if 2 * r < den then q else if den < 2 * r then q + 1 else q + q % 2

theorem div_le_roundDiv (num den : Nat) : num / den ≤ roundDiv num den := by
  simp only [roundDiv]
  split
  · exact Nat.le_refl _
  · split <;> omega

theorem roundDiv_le (num den : Nat) : roundDiv num den ≤ num / den + 1 := by
  simp only [roundDiv]
  split
  · omega
  · split
    · omega
    · have := Nat.mod_lt (num / den) (show 2 > 0 by decide)
      omega

/-- The number of units in one. -/
def one : Nat := Nat.pow 2 1074

/-- How far a magnitude of `num / den` units has to be shifted down to have 53 bits at most. -/
def excess (num den : Nat) : Nat := Nat.log2 (num / den) + 1 - 53

theorem div_excess_lt (num den : Nat) :
    num / (den * Nat.pow 2 (excess num den)) < Nat.pow 2 53 := by
  rw [Nat.pow_eq, Nat.pow_eq, ← Nat.div_div_eq_div_mul, Nat.div_lt_iff_lt_mul (Nat.two_pow_pos _),
    ← Nat.pow_add]
  by_cases h : num / den = 0
  · rw [h]; exact Nat.two_pow_pos _
  · refine Nat.lt_of_lt_of_le Nat.lt_log2_self (Nat.pow_le_pow_right (by decide) ?_)
    unfold excess; omega

theorem le_div_excess {num den : Nat} (h : excess num den ≠ 0) :
    Nat.pow 2 52 ≤ num / (den * Nat.pow 2 (excess num den)) := by
  rw [Nat.pow_eq, Nat.pow_eq, ← Nat.div_div_eq_div_mul, Nat.le_div_iff_mul_le (Nat.two_pow_pos _),
    ← Nat.pow_add]
  have hq : num / den ≠ 0 := by
    intro h0; apply h; simp [excess, h0]
  refine Nat.le_trans (Nat.pow_le_pow_right (by decide) ?_) (Nat.log2_self_le hq)
  unfold excess at *; omega

theorem roundUnits_bound {num den : Nat}
    (h : roundDiv num (den * Nat.pow 2 (excess num den)) ≠ Nat.pow 2 53) :
    roundDiv num (den * Nat.pow 2 (excess num den)) < Nat.pow 2 53 := by
  have h₁ := roundDiv_le num (den * Nat.pow 2 (excess num den))
  have h₂ := div_excess_lt num den
  omega

theorem roundUnits_shift (num den : Nat) :
    excess num den = 0 ∨ Nat.pow 2 52 ≤ roundDiv num (den * Nat.pow 2 (excess num den)) := by
  by_cases h : excess num den = 0
  · exact .inl h
  · exact .inr (Nat.le_trans (le_div_excess h) (div_le_roundDiv _ _))

/-- The representable value nearest to `±num / den` units, ties to the even mantissa, infinite
when the rounded value has too large an exponent. The denominator has to be positive. -/
def roundUnits (negative : Bool) (num den : Nat) : Binary64 :=
  let shift := excess num den
  let mantissa := roundDiv num (den * Nat.pow 2 shift)
  if hcarry : mantissa = Nat.pow 2 53 then
    if hshift : shift + 1 ≤ 2045 then
      .finite negative (Nat.pow 2 52) (shift + 1) ⟨by decide, hshift, .inr (Nat.le_refl _)⟩
    else .infinite negative
  else
    if hshift : shift ≤ 2045 then
      .finite negative mantissa shift ⟨roundUnits_bound hcarry, hshift, roundUnits_shift num den⟩
    else .infinite negative

/-- The value nearest to `±num / den`. -/
def ofRatio (negative : Bool) (num den : Nat) : Binary64 := roundUnits negative (num * one) den

/-- The value nearest to a whole number. -/
def ofInt (n : Int) : Binary64 := ofRatio (n < 0) n.natAbs 1

/-! ## Exact values -/

/-- The magnitude in units, of a finite mantissa and shift. -/
def magnitude (mantissa shift : Nat) : Nat := mantissa * Nat.pow 2 shift

/-- The signed number of units of a magnitude. -/
def signed (negative : Bool) (n : Nat) : Int := if negative then -(n : Int) else n

/-- The nearest value to a signed number of units; an exact zero gets the sign `negativeZero`. -/
def ofUnits (negativeZero : Bool) (n : Int) : Binary64 :=
  roundUnits (if n = 0 then negativeZero else n < 0) n.natAbs 1

/-- The exact number of units of a finite value. -/
def units? : Binary64 → Option Int
  | .finite negative mantissa shift _ => some (signed negative (magnitude mantissa shift))
  | _ => none

/-! ## Arithmetic -/

/-- The sum, rounded once. Opposite infinities have none; two negative zeros give one, and any
other exact zero is positive. -/
def add : Binary64 → Binary64 → Binary64
  | .finite n₁ m₁ s₁ _, .finite n₂ m₂ s₂ _ =>
    ofUnits (n₁ && n₂) (signed n₁ (magnitude m₁ s₁) + signed n₂ (magnitude m₂ s₂))
  | .nan, _ => .nan
  | _, .nan => .nan
  | .infinite a, .infinite b => if a = b then .infinite a else .nan
  | .infinite a, .finite .. => .infinite a
  | .finite .., .infinite b => .infinite b

/-- The product, rounded once. Zero times infinity has none. -/
def mul : Binary64 → Binary64 → Binary64
  | .finite n₁ m₁ s₁ _, .finite n₂ m₂ s₂ _ =>
    roundUnits (n₁ != n₂) (magnitude m₁ s₁ * magnitude m₂ s₂) one
  | .nan, _ => .nan
  | _, .nan => .nan
  | .infinite a, .infinite b => .infinite (a != b)
  | .infinite a, .finite n m _ _ => if m = 0 then .nan else .infinite (a != n)
  | .finite n m _ _, .infinite b => if m = 0 then .nan else .infinite (n != b)

/-- The value with the other sign. -/
def neg : Binary64 → Binary64
  | .nan => .nan
  | .infinite a => .infinite (!a)
  | .finite n m s h => .finite (!n) m s h

/-- Twice the value. -/
def twice : Binary64 → Binary64
  | .finite n m s _ => roundUnits n (2 * magnitude m s) 1
  | x => x

/-- Half the value, rounded when the last bit falls off. -/
def half : Binary64 → Binary64
  | .finite n m s _ => roundUnits n (magnitude m s) 2
  | x => x

/-- One half. -/
def oneHalf : Binary64 := ofRatio false 1 2

/-- Zero, with a sign. -/
def zero (negative : Bool) : Binary64 := .finite negative 0 0 (by decide)

/-! ## Whole numbers -/

/-- The greatest whole number that is not above a finite value. -/
def floor? (x : Binary64) : Option Int := x.units?.map (fun u => Int.fdiv u one)

/-- The whole number that a value is, if it is one. -/
def toInt? (x : Binary64) : Option Int :=
  x.units?.bind (fun u => if u % one = 0 then some (u / one) else none)

/-- The whole part of a finite value, toward zero. -/
def truncate? (x : Binary64) : Option Int := x.units?.map (fun u => Int.tdiv u one)

/-! ## Order -/

/-- Exact comparison; nothing is below or above not-a-number. -/
def lt : Binary64 → Binary64 → Bool
  | .nan, _ | _, .nan => false
  | .infinite a, .infinite b => a && !b
  | .infinite a, .finite .. => a
  | .finite .., .infinite b => !b
  | .finite n₁ m₁ s₁ _, .finite n₂ m₂ s₂ _ =>
    signed n₁ (magnitude m₁ s₁) < signed n₂ (magnitude m₂ s₂)

/-- Below a whole number, compared exactly. -/
def ltInt : Binary64 → Int → Bool
  | .nan, _ => false
  | .infinite a, _ => a
  | .finite n m s _, k => signed n (magnitude m s) < k * one

/-- Above a whole number, compared exactly. -/
def intLt : Int → Binary64 → Bool
  | _, .nan => false
  | _, .infinite a => !a
  | k, .finite n m s _ => k * one < signed n (magnitude m s)

/-- Equality of values: zeros of either sign are equal, not-a-number equals nothing. -/
def eqv : Binary64 → Binary64 → Bool
  | .nan, _ | _, .nan => false
  | .infinite a, .infinite b => a == b
  | .finite n₁ m₁ s₁ _, .finite n₂ m₂ s₂ _ =>
    signed n₁ (magnitude m₁ s₁) == signed n₂ (magnitude m₂ s₂)
  | _, _ => false

end Binary64

end SceneScript
