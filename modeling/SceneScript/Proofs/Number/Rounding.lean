import Mathlib.Tactic.Linarith
import Mathlib.Tactic.Ring
import Mathlib.Algebra.Order.Ring.Int
import SceneScript.Number.Basic

/-!
# Rounding to binary64

What the one rounding step does to quotients it is asked to round.

* Only the quotient counts: a common factor changes nothing (`roundUnits_mul`).
* A representable magnitude is rounded to itself (`roundUnits_magnitude`).
* The result is finite when the mantissa is not shifted out of range
  (`isFinite_roundUnits_of_excess`), which is what keeps halves and sums with one half in range
  (`isFinite_half`, `isFinite_add_oneHalf`).
-/

namespace SceneScript.Binary64

/-- Whether a value is finite. -/
def isFinite : Binary64 → Bool
  | .finite .. => true
  | _ => false

/-! ## Common factors -/

theorem roundDiv_mul {k : ℕ} (hk : 0 < k) (num den : ℕ) :
    roundDiv (k * num) (k * den) = roundDiv num den := by
  have hlt : 2 * (k * (num % den)) < k * den ↔ 2 * (num % den) < den := by
    rw [Nat.mul_left_comm]; exact Nat.mul_lt_mul_left hk
  have hgt : k * den < 2 * (k * (num % den)) ↔ den < 2 * (num % den) := by
    rw [Nat.mul_left_comm]; exact Nat.mul_lt_mul_left hk
  simp only [roundDiv, Nat.mul_div_mul_left _ _ hk, Nat.mul_mod_mul_left, hlt, hgt]

theorem excess_mul {k : ℕ} (hk : 0 < k) (num den : ℕ) :
    excess (k * num) (k * den) = excess num den := by
  simp only [excess, Nat.mul_div_mul_left _ _ hk]

/-- The mantissa that a quotient is rounded to, before a carry. -/
def roundedMantissa (num den : ℕ) : ℕ := roundDiv num (den * Nat.pow 2 (excess num den))

theorem roundedMantissa_mul {k : ℕ} (hk : 0 < k) (num den : ℕ) :
    roundedMantissa (k * num) (k * den) = roundedMantissa num den := by
  rw [roundedMantissa, excess_mul hk, Nat.mul_assoc, roundDiv_mul hk, roundedMantissa]

/-- The value of a rounded mantissa and its shift: a carry goes into the shift, and too large a
shift is infinite. -/
def ofRounded (negative : Bool) (mantissa shift : ℕ) : Binary64 :=
  if mantissa = Nat.pow 2 53 then
    if h : Canonical (Nat.pow 2 52) (shift + 1) then .finite negative _ _ h
    else .infinite negative
  else if h : Canonical mantissa shift then .finite negative _ _ h else .infinite negative

/-- A rounding is known from the mantissa and the shift that it yields. -/
theorem roundUnits_eq_ofRounded (negative : Bool) (num den : ℕ) :
    roundUnits negative num den =
      ofRounded negative (roundedMantissa num den) (excess num den) := by
  unfold roundUnits ofRounded roundedMantissa
  dsimp only
  split
  · split
    · next hs => rw [dif_pos ⟨by decide, hs, .inr (Nat.le_refl _)⟩]
    · next hs => rw [dif_neg (fun h => hs h.2.1)]
  · next hc =>
    split
    · next hs => rw [dif_pos ⟨roundUnits_bound hc, hs, roundUnits_shift num den⟩]
    · next hs => rw [dif_neg (fun h => hs h.2.1)]

/-- A common factor of a quotient changes nothing. -/
theorem roundUnits_mul {k : ℕ} (hk : 0 < k) (negative : Bool) (num den : ℕ) :
    roundUnits negative (k * num) (k * den) = roundUnits negative num den := by
  rw [roundUnits_eq_ofRounded, roundUnits_eq_ofRounded, roundedMantissa_mul hk, excess_mul hk]

/-- Equal quotients are rounded alike. -/
theorem roundUnits_eq_of_mul_eq {negative : Bool} {a b c d : ℕ} (hb : 0 < b) (hd : 0 < d)
    (h : a * d = c * b) : roundUnits negative a b = roundUnits negative c d := by
  rw [← roundUnits_mul hd, ← roundUnits_mul hb negative c d, Nat.mul_comm d a, h,
    Nat.mul_comm c b, Nat.mul_comm d b]

theorem ofRatio_eq_of_mul_eq {negative : Bool} {a b c d : ℕ} (hb : 0 < b) (hd : 0 < d)
    (h : a * d = c * b) : ofRatio negative a b = ofRatio negative c d := by
  refine roundUnits_eq_of_mul_eq hb hd ?_
  rw [Nat.mul_right_comm, h, Nat.mul_right_comm]

/-! ## Representable magnitudes -/

theorem roundDiv_mul_self {den : ℕ} (hden : 0 < den) (m : ℕ) : roundDiv (m * den) den = m := by
  simp [roundDiv, hden]

theorem excess_magnitude {mantissa shift : ℕ} (h : Canonical mantissa shift) :
    excess (magnitude mantissa shift) 1 = shift := by
  obtain ⟨hlt, -, hs⟩ := h
  rw [Nat.pow_eq] at hlt hs
  rw [excess, Nat.div_one, magnitude, Nat.pow_eq]
  by_cases h0 : mantissa = 0
  · subst h0
    rcases hs with rfl | hs
    · simp
    · exact absurd hs (by simp)
  have hne : mantissa * 2 ^ shift ≠ 0 := Nat.mul_ne_zero h0 (Nat.two_pow_pos _).ne'
  have hub : (mantissa * 2 ^ shift).log2 < 53 + shift := by
    rw [Nat.log2_lt hne, Nat.pow_add]
    exact Nat.mul_lt_mul_of_pos_right hlt (Nat.two_pow_pos _)
  rcases hs with rfl | hs
  · omega
  · have hlb : 52 + shift ≤ (mantissa * 2 ^ shift).log2 := by
      rw [Nat.le_log2 hne, Nat.pow_add]
      exact Nat.mul_le_mul_right _ hs
    omega

/-- A representable magnitude is rounded to itself. -/
theorem roundUnits_magnitude (negative : Bool) {mantissa shift : ℕ}
    (h : Canonical mantissa shift) :
    roundUnits negative (magnitude mantissa shift) 1 = .finite negative mantissa shift h := by
  have hm : roundedMantissa (magnitude mantissa shift) 1 = mantissa := by
    rw [roundedMantissa, excess_magnitude h, Nat.one_mul, magnitude]
    exact roundDiv_mul_self (Nat.two_pow_pos shift) mantissa
  rw [roundUnits_eq_ofRounded, hm, excess_magnitude h, ofRounded, if_neg (Nat.ne_of_lt h.1),
    dif_pos h]

/-! ## Range -/

theorem roundUnits_ne_nan (negative : Bool) (num den : ℕ) : roundUnits negative num den ≠ .nan := by
  simp only [roundUnits]
  split_ifs <;> simp

theorem isFinite_roundUnits_of_excess {negative : Bool} {num den : ℕ}
    (h : excess num den < 2045) : (roundUnits negative num den).isFinite = true := by
  unfold roundUnits
  dsimp only
  split
  · rw [dif_pos (show excess num den + 1 ≤ 2045 by omega)]
    rfl
  · rw [dif_pos (show excess num den ≤ 2045 by omega)]
    rfl

theorem excess_le_of_isFinite {negative : Bool} {num den : ℕ}
    (h : (roundUnits negative num den).isFinite = true) : excess num den ≤ 2045 := by
  by_contra hlt
  unfold roundUnits at h
  dsimp only at h
  split at h
  · rw [dif_neg (show ¬ excess num den + 1 ≤ 2045 by omega)] at h
    exact absurd h (by simp [isFinite])
  · simp [isFinite] at h

/-- Half of what is rounded to a finite value is rounded to a finite value. -/
theorem isFinite_roundUnits_half (sign : Bool) {negative : Bool} {num den : ℕ}
    (h : (roundUnits negative num den).isFinite = true) :
    (roundUnits sign num (den * 2)).isFinite = true := by
  have hle := excess_le_of_isFinite h
  refine isFinite_roundUnits_of_excess ?_
  unfold excess at hle ⊢
  rw [← Nat.div_div_eq_div_mul]
  by_cases h2 : 2 ≤ num / den
  · rw [Nat.log2_def, if_pos h2] at hle
    omega
  · simp [Nat.div_eq_of_lt (show num / den < 2 by omega)]

theorem excess_le {num k : ℕ} (h : num < Nat.pow 2 53 * Nat.pow 2 k) : excess num 1 ≤ k := by
  rw [excess, Nat.div_one]
  by_cases h0 : num = 0
  · simp [h0]
  · have : num.log2 < 53 + k := by
      rw [Nat.log2_lt h0, Nat.pow_add]
      exact h
    omega

theorem lt_of_excess_le {num k : ℕ} (h : excess num 1 ≤ k) : num < Nat.pow 2 53 * Nat.pow 2 k := by
  rw [excess, Nat.div_one] at h
  by_cases h0 : num = 0
  · subst h0
    exact Nat.mul_pos (Nat.two_pow_pos 53) (Nat.two_pow_pos k)
  · have hlog : num.log2 < 53 + k := by omega
    rwa [Nat.log2_lt h0, Nat.pow_add] at hlog

/-- The mantissa does not carry when less than half of a place is left over from the largest. -/
theorem roundedMantissa_lt {num k r : ℕ} (he : excess num 1 = k) (hr : 2 * r < Nat.pow 2 k)
    (h : num ≤ (Nat.pow 2 53 - 1) * Nat.pow 2 k + r) : roundedMantissa num 1 < Nat.pow 2 53 := by
  rw [roundedMantissa, he, Nat.one_mul]
  generalize hd : Nat.pow 2 k = d at hr h ⊢
  have hpos : 0 < d := by rw [← hd]; exact Nat.two_pow_pos k
  rw [show Nat.pow 2 53 = 9007199254740992 from rfl] at h ⊢
  have hdiv := Nat.div_add_mod num d
  have hq : num / d < 9007199254740992 := (Nat.div_lt_iff_lt_mul hpos).2 (by omega)
  by_cases hlast : num / d = 9007199254740991
  · rw [hlast] at hdiv
    rw [roundDiv, hlast, if_pos (by omega)]
    omega
  · have := roundDiv_le num d
    omega

theorem isFinite_ofRounded {negative : Bool} {mantissa shift : ℕ} (h : Canonical mantissa shift) :
    (ofRounded negative mantissa shift).isFinite = true := by
  rw [ofRounded, if_neg (Nat.ne_of_lt h.1), dif_pos h]
  rfl

/-- A magnitude is rounded to a finite value when it exceeds the largest finite one by less than
half of its last place. -/
theorem isFinite_roundUnits_of_le {negative : Bool} {num r : ℕ} (hr : 2 * r < Nat.pow 2 2045)
    (h : num ≤ (Nat.pow 2 53 - 1) * Nat.pow 2 2045 + r) :
    (roundUnits negative num 1).isFinite = true := by
  generalize hk : 2045 = k at hr h
  have hle : excess num 1 ≤ k := by
    refine excess_le (Nat.lt_of_le_of_lt h ?_)
    rw [show Nat.pow 2 53 = 9007199254740992 from rfl]
    generalize Nat.pow 2 k = d at hr
    omega
  rcases Nat.lt_or_eq_of_le hle with hs | hs
  · exact isFinite_roundUnits_of_excess (hk ▸ hs)
  · rw [roundUnits_eq_ofRounded]
    exact isFinite_ofRounded ⟨roundedMantissa_lt hs hr h, hk ▸ hle, roundUnits_shift num 1⟩

theorem two_pow_pos (k : ℕ) : 0 < Nat.pow 2 k := Nat.two_pow_pos k

theorem two_pow_le {a b : ℕ} (h : a ≤ b) : Nat.pow 2 a ≤ Nat.pow 2 b :=
  Nat.pow_le_pow_right (by decide) h

theorem magnitude_le {mantissa shift : ℕ} (h : Canonical mantissa shift) :
    magnitude mantissa shift ≤ (Nat.pow 2 53 - 1) * Nat.pow 2 2045 := by
  obtain ⟨hm, hs, -⟩ := h
  generalize 2045 = top at hs
  exact Nat.mul_le_mul (Nat.le_sub_one_of_lt hm) (two_pow_le hs)

theorem oneHalf_eq : oneHalf = .finite false (Nat.pow 2 52) 1021 (by decide) := by
  decide +kernel

/-- Adding one half to a finite value stays finite. -/
theorem isFinite_add_oneHalf {x : Binary64} (h : x.isFinite = true) :
    (x.add oneHalf).isFinite = true := by
  cases x with
  | nan => simp [isFinite] at h
  | infinite negative => simp [isFinite] at h
  | finite negative mantissa shift hc =>
    rw [oneHalf_eq, add, ofUnits]
    have hm := magnitude_le hc
    have hone : 2 * magnitude (Nat.pow 2 52) 1021 < Nat.pow 2 2045 := by decide +kernel
    refine isFinite_roundUnits_of_le hone ?_
    generalize magnitude (Nat.pow 2 52) 1021 = u at *
    generalize (Nat.pow 2 53 - 1) * Nat.pow 2 2045 = top at *
    cases negative <;> simp only [signed] <;> simp <;> omega

/-- Half of a finite value is finite. -/
theorem isFinite_half {x : Binary64} (h : x.isFinite = true) : x.half.isFinite = true := by
  cases x with
  | nan => simp [isFinite] at h
  | infinite negative => simp [isFinite] at h
  | finite negative mantissa shift hc =>
    have hf : (roundUnits negative (magnitude mantissa shift) 1).isFinite = true := by
      rw [roundUnits_magnitude negative hc]
      rfl
    have hhalf := isFinite_roundUnits_half negative hf
    rwa [Nat.one_mul] at hhalf

/-! ## Whole values -/

theorem units?_ofRounded {negative : Bool} {mantissa shift : ℕ} (h : Canonical mantissa shift) :
    (ofRounded negative mantissa shift).units? =
      some (signed negative (magnitude mantissa shift)) := by
  rw [ofRounded, if_neg (Nat.ne_of_lt h.1), dif_pos h]
  rfl

theorem roundDiv_of_dvd {num den : ℕ} (hden : 0 < den) (h : den ∣ num) :
    roundDiv num den = num / den := by
  simp [roundDiv, Nat.mod_eq_zero_of_dvd h, hden]

/-- A magnitude with 53 significant bits at most is rounded to itself. -/
theorem units?_roundUnits_mul_two_pow (negative : Bool) {a j : ℕ} (ha : a < Nat.pow 2 53)
    (hj : j ≤ 2045) :
    (roundUnits negative (a * Nat.pow 2 j) 1).units? =
      some (signed negative (a * Nat.pow 2 j)) := by
  have hle : excess (a * Nat.pow 2 j) 1 ≤ j :=
    excess_le ((Nat.mul_lt_mul_right (Nat.two_pow_pos j)).2 ha)
  have hdvd : Nat.pow 2 (excess (a * Nat.pow 2 j) 1) ∣ a * Nat.pow 2 j :=
    Dvd.dvd.mul_left (Nat.pow_dvd_pow 2 hle) a
  have hlt := div_excess_lt (a * Nat.pow 2 j) 1
  have hshift := roundUnits_shift (a * Nat.pow 2 j) 1
  rw [roundUnits_eq_ofRounded, roundedMantissa]
  rw [Nat.one_mul] at hlt hshift ⊢
  rw [roundDiv_of_dvd (two_pow_pos _) hdvd] at hshift ⊢
  rw [units?_ofRounded ⟨hlt, hle.trans hj, hshift⟩, magnitude, Nat.div_mul_cancel hdvd]

/-- The value of a whole number of 53 bits at most is that number. -/
theorem units?_ofInt {n : ℤ} (h : n.natAbs < Nat.pow 2 53) :
    (ofInt n).units? = some (n * one) := by
  obtain ⟨j, hj, hone⟩ : ∃ j, j ≤ 2045 ∧ one = Nat.pow 2 j := ⟨1074, by decide, by rw [one]⟩
  rw [ofInt, ofRatio, hone, units?_roundUnits_mul_two_pow _ h hj, Option.some.injEq, signed]
  by_cases hn : n < 0 <;> simp only [hn, decide_true, decide_false, if_true] <;> push_cast
  · rw [abs_of_neg hn]
    ring
  · simp [abs_of_nonneg (not_lt.1 hn)]

theorem signed_natAbs (negativeZero : Bool) (n : ℤ) :
    signed (if n = 0 then negativeZero else n < 0) n.natAbs = n := by
  rcases lt_trichotomy n 0 with hn | rfl | hn
  · simp only [signed, hn.ne, hn, if_false, decide_true, if_true]
    omega
  · cases negativeZero <;> rfl
  · simp only [signed, hn.ne', not_lt.2 hn.le, if_false, decide_false]
    simp [abs_of_pos hn]

theorem units?_ofUnits (negativeZero : Bool) {n : ℤ} {a j : ℕ} (hn : n.natAbs = a * Nat.pow 2 j)
    (ha : a < Nat.pow 2 53) (hj : j ≤ 2045) : (ofUnits negativeZero n).units? = some n := by
  rw [ofUnits]
  conv_rhs => rw [← signed_natAbs negativeZero n]
  rw [hn]
  exact units?_roundUnits_mul_two_pow _ ha hj

theorem units?_add {x y : Binary64} {u v : ℤ} (hx : x.units? = some u) (hy : y.units? = some v) :
    ∃ negativeZero, x.add y = ofUnits negativeZero (u + v) := by
  cases x <;> simp only [units?, reduceCtorEq, Option.some.injEq] at hx
  cases y <;> simp only [units?, reduceCtorEq, Option.some.injEq] at hy
  subst hx hy
  exact ⟨_, rfl⟩

theorem magnitude_two_pow (a b : ℕ) : magnitude (Nat.pow 2 a) b = Nat.pow 2 (a + b) :=
  (Nat.pow_add 2 a b).symm

theorem units?_oneHalf : ∃ j, j ≤ 2045 ∧ one = 2 * Nat.pow 2 j ∧
    oneHalf.units? = some ((Nat.pow 2 j : ℕ) : ℤ) := by
  refine ⟨52 + 1021, by decide, by decide +kernel, ?_⟩
  rw [oneHalf_eq, units?, magnitude_two_pow]
  rfl

theorem units?_of_toInt? {x : Binary64} {k : ℤ} (h : x.toInt? = some k) :
    x.units? = some (k * one) := by
  obtain ⟨u, hu, hk⟩ := Option.bind_eq_some_iff.1 h
  split at hk
  · next hmod =>
    obtain rfl := Option.some.inj hk
    rw [hu, Int.ediv_mul_cancel (Int.dvd_of_emod_eq_zero hmod)]
  · exact absurd hk (by simp)

theorem fdiv_odd_multiple (k : ℤ) {d : ℕ} (hd : 0 < d) :
    Int.fdiv ((2 * k + 1) * d) (2 * d : ℕ) = k := by
  rw [Int.fdiv_eq_ediv_of_nonneg _ (Int.natCast_nonneg _), Int.natCast_mul,
    Int.mul_ediv_mul_of_pos_left _ _ (Int.natCast_pos.2 hd)]
  push_cast
  omega

/-- Adding one half to a whole value and taking the whole part gives the value back. -/
theorem floor?_add_oneHalf {x : Binary64} {k : ℤ} (h : x.toInt? = some k)
    (hk : k.natAbs ≤ Nat.pow 2 50) : (x.add oneHalf).floor? = some k := by
  obtain ⟨j, hj, hone, hhalf⟩ := units?_oneHalf
  obtain ⟨z, hz⟩ := units?_add (units?_of_toInt? h) hhalf
  have hsum : k * one + (Nat.pow 2 j : ℕ) = (2 * k + 1) * (Nat.pow 2 j : ℕ) := by
    rw [hone]
    push_cast
    ring
  have hu : (ofUnits z (k * one + (Nat.pow 2 j : ℕ))).units? =
      some ((2 * k + 1) * (Nat.pow 2 j : ℕ)) := by
    rw [hsum]
    have habs : ((2 * k + 1) * (Nat.pow 2 j : ℕ)).natAbs = (2 * k + 1).natAbs * Nat.pow 2 j := by
      rw [Int.natAbs_mul, Int.natAbs_natCast]
    refine units?_ofUnits z habs ?_ hj
    rw [show Nat.pow 2 53 = 9007199254740992 from rfl]
    rw [show Nat.pow 2 50 = 1125899906842624 from rfl] at hk
    omega
  rw [hz, floor?, hu, Option.map_some, hone, fdiv_odd_multiple k (two_pow_pos j)]

end SceneScript.Binary64
