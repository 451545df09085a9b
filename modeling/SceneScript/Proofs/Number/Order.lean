import Mathlib.Algebra.Order.Ring.Int
import Mathlib.Data.Int.ConditionallyCompleteOrder
import Mathlib.Order.WithBot
import SceneScript.Proofs.Number.Rounding

/-!
# The order of numbers

Every number but not-a-number has a value in units of `2⁻¹⁰⁷⁴`, the infinities below and above all
others (`Num.value?`), and numbers are compared by these values whatever their kinds (`Num.lt_iff`,
`Num.le_iff`). Not-a-number is neither below, nor equal to, nor above anything.

Main statement: the larger of a number and any other is not below the first (`Num.le_max_left`).
-/

namespace SceneScript

/-- A number in units of `2⁻¹⁰⁷⁴`, or an infinity. -/
abbrev Units := WithBot (WithTop ℤ)

/-- A whole number of units. -/
def Units.ofInt (n : ℤ) : Units := ((n : WithTop ℤ) : Units)

namespace Units

@[simp]
theorem ofInt_lt {m n : ℤ} : ofInt m < ofInt n ↔ m < n := by
  simp [ofInt]

@[simp]
theorem ofInt_inj {m n : ℤ} : ofInt m = ofInt n ↔ m = n := by
  simp [ofInt]

@[simp]
theorem bot_lt_ofInt (n : ℤ) : ⊥ < ofInt n := WithBot.bot_lt_coe _

@[simp]
theorem ofInt_lt_top (n : ℤ) : ofInt n < ⊤ := WithBot.coe_lt_coe.2 (WithTop.coe_lt_top n)

@[simp]
theorem ofInt_ne_bot (n : ℤ) : ofInt n ≠ ⊥ := (bot_lt_ofInt n).ne'

@[simp]
theorem ofInt_ne_top (n : ℤ) : ofInt n ≠ ⊤ := (ofInt_lt_top n).ne

@[simp]
theorem bot_ne_ofInt (n : ℤ) : ⊥ ≠ ofInt n := (bot_lt_ofInt n).ne

@[simp]
theorem top_ne_ofInt (n : ℤ) : ⊤ ≠ ofInt n := (ofInt_lt_top n).ne'

/-- A whole number in units; their number is kept out of sight. -/
def whole (n : ℤ) : Units := ofInt (n * Binary64.one)

theorem one_pos : (0 : ℤ) < (Binary64.one : ℤ) := Int.natCast_pos.2 (Binary64.two_pow_pos 1074)

@[simp]
theorem whole_lt {m n : ℤ} : whole m < whole n ↔ m < n :=
  ofInt_lt.trans (Int.mul_lt_mul_right one_pos)

@[simp]
theorem whole_inj {m n : ℤ} : whole m = whole n ↔ m = n :=
  ofInt_inj.trans (Int.mul_eq_mul_right_iff one_pos.ne')

@[simp]
theorem bot_lt_whole (n : ℤ) : ⊥ < whole n := bot_lt_ofInt _

@[simp]
theorem whole_lt_top (n : ℤ) : whole n < ⊤ := ofInt_lt_top _

end Units

namespace Binary64

/-- What a number is in units; not-a-number is none. -/
def value? : Binary64 → Option Units
  | .nan => none
  | .infinite negative => some (if negative then ⊥ else ⊤)
  | .finite negative mantissa shift _ => some (.ofInt (signed negative (magnitude mantissa shift)))

variable {x y : Binary64} {n : ℤ}

theorem ltInt_iff : x.ltInt n = true ↔ ∃ u, x.value? = some u ∧ u < .whole n := by
  cases x with
  | nan => simp [ltInt, value?]
  | infinite negative => cases negative <;> simp [ltInt, value?]
  | finite negative mantissa shift hc =>
    rw [ltInt, decide_eq_true_iff, value?, Units.whole, ← Units.ofInt_lt]
    constructor
    · exact fun h => ⟨_, rfl, h⟩
    · rintro ⟨u, hu, h⟩
      exact Option.some.inj hu ▸ h

theorem intLt_iff : intLt n x = true ↔ ∃ u, x.value? = some u ∧ .whole n < u := by
  cases x with
  | nan => simp [intLt, value?]
  | infinite negative => cases negative <;> simp [intLt, value?]
  | finite negative mantissa shift hc =>
    rw [intLt, decide_eq_true_iff, value?, Units.whole, ← Units.ofInt_lt]
    constructor
    · exact fun h => ⟨_, rfl, h⟩
    · rintro ⟨u, hu, h⟩
      exact Option.some.inj hu ▸ h

theorem lt_iff : x.lt y = true ↔ ∃ u v, x.value? = some u ∧ y.value? = some v ∧ u < v := by
  rcases x with _ | (_ | _) | ⟨n, m, s, _⟩ <;> rcases y with _ | (_ | _) | ⟨n', m', s', _⟩ <;>
    simp [value?, lt]

theorem eqv_iff : x.eqv y = true ↔ ∃ u, x.value? = some u ∧ y.value? = some u := by
  rcases x with _ | (_ | _) | ⟨n, m, s, _⟩ <;> rcases y with _ | (_ | _) | ⟨n', m', s', _⟩ <;>
    simp [value?, eqv]
  exact eq_comm

theorem toInt?_eq_some_iff : x.toInt? = some n ↔ x.value? = some (.whole n) := by
  cases x with
  | nan =>
    have hnone : toInt? nan = none := rfl
    rw [hnone]
    simp [value?]
  | infinite negative =>
    have hnone : toInt? (infinite negative) = none := rfl
    rw [hnone]
    cases negative with
    | true => simp [value?, (Units.bot_lt_whole n).ne]
    | false => simp [value?, (Units.whole_lt_top n).ne']
  | finite negative mantissa shift hc =>
    rw [toInt?, units?, value?, Option.bind_some, Option.ite_none_right_eq_some,
      Option.some.injEq, Option.some.injEq, Units.whole, Units.ofInt_inj]
    constructor
    · rintro ⟨hmod, rfl⟩
      exact (Int.ediv_mul_cancel (Int.dvd_of_emod_eq_zero hmod)).symm
    · intro h
      rw [h]
      exact ⟨Int.mul_emod_left _ _, Int.mul_ediv_cancel _ Units.one_pos.ne'⟩

end Binary64

namespace Num

/-- What a number is in units; not-a-number is none. -/
def value? : Num → Option Units
  | .int n => some (.whole n)
  | .double x => x.value?

theorem isNaN_eq_false_iff {v : Num} : v.isNaN = false ↔ ∃ x, v.value? = some x := by
  cases v with
  | int n => simp [isNaN, value?]
  | double x => cases x <;> simp [isNaN, value?, Binary64.value?]

/-- Numbers are compared by what they are in units. -/
theorem lt_iff {a b : Num} :
    a.lt b = true ↔ ∃ x y, a.value? = some x ∧ b.value? = some y ∧ x < y := by
  cases a with
  | int m =>
    cases b with
    | int n => simp [lt, value?]
    | double y => simp [lt, value?, Binary64.intLt_iff]
  | double x =>
    cases b with
    | int n => simp [lt, value?, Binary64.ltInt_iff]
    | double y => simp [lt, value?, Binary64.lt_iff]

theorem eqv_iff {a b : Num} :
    a.eqv b = true ↔ ∃ x, a.value? = some x ∧ b.value? = some x := by
  cases a with
  | int m =>
    cases b with
    | int n =>
      rw [eqv, beq_iff_eq, ← Units.whole_inj]
      constructor
      · exact fun h => ⟨_, rfl, congrArg some h.symm⟩
      · rintro ⟨u, hu, hu'⟩
        exact Option.some.inj (hu.trans hu'.symm)
    | double y => simp [eqv, value?, Binary64.toInt?_eq_some_iff]
  | double x =>
    cases b with
    | int n => simp [eqv, value?, Binary64.toInt?_eq_some_iff]
    | double y => simp [eqv, value?, Binary64.eqv_iff]

theorem le_iff {a b : Num} :
    a.le b = true ↔ ∃ x y, a.value? = some x ∧ b.value? = some y ∧ x ≤ y := by
  rw [le, Bool.or_eq_true, lt_iff, eqv_iff]
  constructor
  · rintro (⟨x, y, ha, hb, hlt⟩ | ⟨x, ha, hb⟩)
    · exact ⟨x, y, ha, hb, hlt.le⟩
    · exact ⟨x, x, ha, hb, le_rfl⟩
  · rintro ⟨x, y, ha, hb, hle⟩
    rcases hle.lt_or_eq with hlt | rfl
    · exact .inl ⟨x, y, ha, hb, hlt⟩
    · exact .inr ⟨x, ha, hb⟩

/-! ## Consequences -/

variable {a b c : Num}

theorem le_trans (hab : a.le b = true) (hbc : b.le c = true) : a.le c = true := by
  obtain ⟨x, y, ha, hb, hxy⟩ := le_iff.1 hab
  obtain ⟨y', z, hb', hc, hyz⟩ := le_iff.1 hbc
  obtain rfl := Option.some.inj (hb.symm.trans hb')
  exact le_iff.2 ⟨x, z, ha, hc, hxy.trans hyz⟩

theorem le_of_lt (h : a.lt b = true) : a.le b = true := by
  rw [le, h, Bool.true_or]

theorem le_refl (h : a.isNaN = false) : a.le a = true := by
  obtain ⟨x, hx⟩ := isNaN_eq_false_iff.1 h
  exact le_iff.2 ⟨x, x, hx, hx, le_rfl⟩

/-- What is at most something is not above it. -/
theorem lt_eq_false_of_le (h : a.le b = true) : b.lt a = false := by
  obtain ⟨x, y, ha, hb, hxy⟩ := le_iff.1 h
  refine Bool.eq_false_iff.2 fun hlt => ?_
  obtain ⟨y', x', hb', ha', hyx⟩ := lt_iff.1 hlt
  obtain rfl := Option.some.inj (ha.symm.trans ha')
  obtain rfl := Option.some.inj (hb.symm.trans hb')
  exact hyx.not_ge hxy

/-- Of two numbers that are none of them not-a-number, one is at most the other. -/
theorem le_of_lt_eq_false (ha : a.isNaN = false) (hb : b.isNaN = false) (h : b.lt a = false) :
    a.le b = true := by
  obtain ⟨x, hx⟩ := isNaN_eq_false_iff.1 ha
  obtain ⟨y, hy⟩ := isNaN_eq_false_iff.1 hb
  refine le_iff.2 ⟨x, y, hx, hy, not_lt.1 fun hlt => ?_⟩
  rw [lt_iff.2 ⟨y, x, hy, hx, hlt⟩] at h
  cases h

theorem isNaN_of_le (h : a.le b = true) : a.isNaN = false ∧ b.isNaN = false := by
  obtain ⟨x, y, ha, hb, -⟩ := le_iff.1 h
  exact ⟨isNaN_eq_false_iff.2 ⟨x, ha⟩, isNaN_eq_false_iff.2 ⟨y, hb⟩⟩

theorem lt_of_lt_of_le (hab : a.lt b = true) (hbc : b.le c = true) : a.lt c = true := by
  obtain ⟨x, y, ha, hb, hxy⟩ := lt_iff.1 hab
  obtain ⟨y', z, hb', hc, hyz⟩ := le_iff.1 hbc
  obtain rfl := Option.some.inj (hb.symm.trans hb')
  exact lt_iff.2 ⟨x, z, ha, hc, hxy.trans_le hyz⟩

/-- Of two numbers that are none of them not-a-number, one is at most the other or above it. -/
theorem lt_of_le_eq_false (ha : a.isNaN = false) (hb : b.isNaN = false) (h : a.le b = false) :
    b.lt a = true := by
  by_contra hlt
  rw [le_of_lt_eq_false ha hb (Bool.eq_false_iff.2 hlt)] at h
  cases h

/-- Not-a-number is above nothing. -/
theorem lt_eq_false_of_isNaN (h : b.isNaN = true) (a : Num) : a.lt b = false := by
  refine Bool.eq_false_iff.2 fun hlt => ?_
  rw [(isNaN_of_le (le_of_lt hlt)).2] at h
  cases h

/-- Nothing is above not-a-number. -/
theorem max_of_isNaN (h : a.isNaN = true) (b : Num) : a.max b = a := by
  have hlt : a.lt b = false := by
    refine Bool.eq_false_iff.2 fun hlt => ?_
    rw [(isNaN_of_le (le_of_lt hlt)).1] at h
    cases h
  rw [max, hlt]
  rfl

/-- The larger of a number and any other is not below the first. -/
theorem le_max_left (h : a.isNaN = false) (b : Num) : a.le (a.max b) = true := by
  unfold max
  split
  · next hlt => exact le_of_lt hlt
  · exact le_refl h

end Num

end SceneScript
