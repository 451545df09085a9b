import SceneScript.Proofs.Number.Rounding
import SceneScript.Proofs.Traversal

/-!
# Finite numbers

A number is finite when it has a finite binary64 neighbour. Of such a number everything that a
script prints can be had: its rounding, which has few digits (`roundHalfUp_of_finite`), and its
half (`half_of_finite`). A whole number of moderate size is its own rounding
(`roundHalfUp_of_whole`), and its half, which is exact, has a rounding of moderate size
(`roundHalfUp_half`).
-/

namespace SceneScript.Num

/-- Whether a number is finite: it has a finite binary64 neighbour. -/
def Finite (v : Num) : Prop := ∃ x, v.toDouble = .ok x ∧ x.isFinite = true

/-- The whole number that a number is, if it is one. -/
def whole? : Num → Option ℤ
  | .int n => some n
  | .double x => x.toInt?

/-- Whether a number is whole and of at most a size. -/
def IsWholeWithin (bound : ℕ) (v : Num) : Prop := ∃ k, v.whole? = some k ∧ k.natAbs ≤ bound

instance (bound : ℕ) (v : Num) : Decidable (v.IsWholeWithin bound) :=
  inferInstanceAs (Decidable (∃ k ∈ v.whole?, k.natAbs ≤ bound))

end SceneScript.Num

namespace SceneScript.Binary64

theorem exists_units?_of_isFinite {x : Binary64} (h : x.isFinite = true) :
    ∃ u, x.units? = some u ∧ u.natAbs < Nat.pow 2 2098 := by
  cases x with
  | nan => simp [isFinite] at h
  | infinite negative => simp [isFinite] at h
  | finite negative mantissa shift hc =>
    refine ⟨_, rfl, ?_⟩
    have hm := magnitude_le hc
    have htop : (Nat.pow 2 53 - 1) * Nat.pow 2 2045 < Nat.pow 2 2098 := by decide +kernel
    have habs : (signed negative (magnitude mantissa shift)).natAbs = magnitude mantissa shift := by
      cases negative <;> simp [signed]
    rw [habs]
    exact hm.trans_lt htop

theorem isFinite_of_toInt? {x : Binary64} {k : ℤ} (h : x.toInt? = some k) : x.isFinite = true := by
  cases x with
  | nan => exact nomatch (show none = some k from h)
  | infinite negative => exact nomatch (show none = some k from h)
  | finite negative mantissa shift hc => rfl

/-- A whole number is read back off its binary64 neighbour when it has 53 bits at most. -/
theorem toInt?_ofInt {n : ℤ} (h : n.natAbs < Nat.pow 2 53) : (ofInt n).toInt? = some n := by
  have hone : (one : ℤ) ≠ 0 := Int.natCast_ne_zero.2 (two_pow_pos 1074).ne'
  simp only [toInt?, units?_ofInt h, Option.bind_some, Int.mul_emod_left, if_true,
    Int.mul_ediv_cancel _ hone]

/-! ## Halves -/

theorem fdiv_multiple (k : ℤ) {d : ℕ} (hd : 0 < d) :
    Int.fdiv (k * d) (2 * d : ℕ) = Int.fdiv k 2 := by
  rw [Int.fdiv_eq_ediv_of_nonneg _ (Int.natCast_nonneg _), Int.natCast_mul,
    Int.mul_ediv_mul_of_pos_left _ _ (Int.natCast_pos.2 hd),
    Int.fdiv_eq_ediv_of_nonneg _ (by decide)]
  rfl

/-- Adding one half to a number of halves and taking the whole part. -/
theorem floor?_add_oneHalf_of_halves {x : Binary64} {k : ℤ} (hk : k.natAbs ≤ Nat.pow 2 50)
    (hx : ∀ j, one = 2 * Nat.pow 2 j → j ≤ 2045 → x.units? = some (k * (Nat.pow 2 j : ℕ))) :
    (x.add oneHalf).floor? = some (Int.fdiv (k + 1) 2) := by
  obtain ⟨j, hj, hone, hhalf⟩ := units?_oneHalf
  obtain ⟨z, hz⟩ := units?_add (hx j hone hj) hhalf
  have hsum : k * (Nat.pow 2 j : ℕ) + (Nat.pow 2 j : ℕ) = (k + 1) * (Nat.pow 2 j : ℕ) := by
    rw [Int.add_mul, Int.one_mul]
  have hunits : (ofUnits z ((k + 1) * (Nat.pow 2 j : ℕ))).units? =
      some ((k + 1) * (Nat.pow 2 j : ℕ)) := by
    have habs : ((k + 1) * (Nat.pow 2 j : ℕ)).natAbs = (k + 1).natAbs * Nat.pow 2 j := by
      rw [Int.natAbs_mul, Int.natAbs_natCast]
    refine units?_ofUnits z habs ?_ hj
    have hlt : Nat.pow 2 50 + 1 < Nat.pow 2 53 := by decide
    have hle : (k + 1).natAbs ≤ k.natAbs + 1 := Int.natAbs_add_le k 1
    exact (hle.trans (Nat.succ_le_succ hk)).trans_lt hlt
  rw [floor?, hz, hsum, hunits, hone, Option.map_some, fdiv_multiple _ (two_pow_pos j)]

theorem lt_of_le_two_pow {k : ℤ} (hk : k.natAbs ≤ Nat.pow 2 50) : k.natAbs < Nat.pow 2 53 :=
  hk.trans_lt (by decide)

/-- Half of a magnitude of moderate size is exact. -/
theorem roundUnits_half {negative : Bool} {a j : ℕ} (hone : one = 2 * Nat.pow 2 j) :
    roundUnits negative (a * one) 2 = roundUnits negative (a * Nat.pow 2 j) 1 := by
  refine roundUnits_eq_of_mul_eq (by decide) (by decide) ?_
  rw [hone, Nat.mul_one, Nat.mul_comm 2, Nat.mul_assoc]

theorem signed_mul (negative : Bool) (a d : ℕ) :
    signed negative (a * d) = signed negative a * d := by
  cases negative <;> simp [signed]

theorem natAbs_signed (negative : Bool) (a : ℕ) : (signed negative a).natAbs = a := by
  cases negative <;> simp [signed]

theorem units?_ofRatio_two {k : ℤ} (hk : k.natAbs ≤ Nat.pow 2 50) {j : ℕ}
    (hone : one = 2 * Nat.pow 2 j) (hj : j ≤ 2045) :
    (ofRatio (k < 0) k.natAbs 2).units? = some (k * (Nat.pow 2 j : ℕ)) := by
  rw [ofRatio, roundUnits_half hone, units?_roundUnits_mul_two_pow _ (lt_of_le_two_pow hk) hj]
  have hk : signed (k < 0) k.natAbs = k := by
    by_cases hn : k < 0
    · simp only [signed, hn, decide_true, if_true]
      omega
    · simp only [signed, hn, decide_false, Bool.false_eq_true, if_false]
      omega
  rw [signed_mul, hk]

theorem units?_half {x : Binary64} {k : ℤ} (h : x.toInt? = some k) (hk : k.natAbs ≤ Nat.pow 2 50)
    {j : ℕ} (hone : one = 2 * Nat.pow 2 j) (hj : j ≤ 2045) :
    x.half.units? = some (k * (Nat.pow 2 j : ℕ)) := by
  have hunits := units?_of_toInt? h
  cases x with
  | nan => exact nomatch hunits
  | infinite negative => exact nomatch hunits
  | finite negative mantissa shift hc =>
    have hsigned : signed negative (magnitude mantissa shift) = k * one := Option.some.inj hunits
    have hmagnitude : magnitude mantissa shift = k.natAbs * one := by
      rw [← natAbs_signed negative (magnitude mantissa shift), hsigned, Int.natAbs_mul,
        Int.natAbs_natCast]
    rw [hmagnitude, signed_mul] at hsigned
    have hone_ne : (one : ℤ) ≠ 0 := Int.natCast_ne_zero.2 (two_pow_pos 1074).ne'
    rw [half, hmagnitude, roundUnits_half hone,
      units?_roundUnits_mul_two_pow _ (lt_of_le_two_pow hk) hj, signed_mul,
      Int.eq_of_mul_eq_mul_right hone_ne hsigned]

end SceneScript.Binary64

namespace SceneScript.Num

open Binary64

theorem inRange_of_isFinite {tooLarge : NumberError} {x : Binary64} (h : x.isFinite = true) :
    inRange tooLarge x = .ok x := by
  cases x with
  | infinite negative => simp [isFinite] at h
  | nan => rfl
  | finite negative mantissa shift hc => rfl

theorem eq_of_inRange {tooLarge : NumberError} {x y : Binary64} (h : inRange tooLarge x = .ok y) :
    x = y := by
  cases x with
  | infinite negative => simp [inRange] at h
  | nan => exact Except.ok.inj h
  | finite negative mantissa shift hc => exact Except.ok.inj h

theorem toDouble_int (n : ℤ) : (Num.int n).toDouble = inRange .integerTooLarge (ofInt n) := rfl

theorem half_int (n : ℤ) :
    (Num.int n).half = (inRange .quotientTooLarge (ofRatio (n < 0) n.natAbs 2)).map .double := rfl

theorem isFinite_ofInt {n : ℤ} (h : (Num.int n).Finite) : (ofInt n).isFinite = true := by
  obtain ⟨y, hy, hf⟩ := h
  rw [toDouble_int] at hy
  rwa [eq_of_inRange hy]

theorem finite_double {x : Binary64} (h : x.isFinite = true) : (Num.double x).Finite := ⟨x, rfl, h⟩

/-- A whole number of moderate size, as binary64. -/
theorem toDouble_of_whole {v : Num} {k : ℤ} (h : v.whole? = some k)
    (hk : k.natAbs ≤ Nat.pow 2 50) : ∃ x, v.toDouble = .ok x ∧ x.toInt? = some k := by
  cases v with
  | double x => exact ⟨x, rfl, h⟩
  | int n =>
    obtain rfl : n = k := by simpa [whole?] using h
    have hlt : n.natAbs < Nat.pow 2 53 := hk.trans_lt (by decide)
    have hto := toInt?_ofInt hlt
    exact ⟨ofInt n, inRange_of_isFinite (isFinite_of_toInt? hto), hto⟩

theorem IsWholeWithin.finite {v : Num} (h : v.IsWholeWithin (Nat.pow 2 50)) : v.Finite := by
  obtain ⟨k, hk, hle⟩ := h
  obtain ⟨x, hx, hto⟩ := toDouble_of_whole hk hle
  exact ⟨x, hx, isFinite_of_toInt? hto⟩

/-- A whole number of moderate size is its own rounding. -/
theorem roundHalfUp_of_whole {v : Num} {k : ℤ} (h : v.whole? = some k)
    (hk : k.natAbs ≤ Nat.pow 2 50) : v.roundHalfUp = .ok k := by
  obtain ⟨x, hx, hto⟩ := toDouble_of_whole h hk
  simp only [roundHalfUp, hx, bind, Except.bind, wholePart, floor?_add_oneHalf hto hk]

/-- A finite number has a rounding, and it has few enough digits to be read. -/
theorem roundHalfUp_of_finite {v : Num} (h : v.Finite) :
    ∃ n, v.roundHalfUp = .ok n ∧ n.natAbs < Nat.pow 2 2098 := by
  obtain ⟨x, hx, hf⟩ := h
  obtain ⟨u, hu, hlt⟩ := exists_units?_of_isFinite (isFinite_add_oneHalf hf)
  refine ⟨Int.fdiv u one, ?_, ?_⟩
  · simp only [roundHalfUp, hx, bind, Except.bind, wholePart, floor?, hu, Option.map_some]
  · rw [Int.fdiv_eq_ediv_of_nonneg _ (Int.natCast_nonneg _)]
    exact (Int.natAbs_ediv_le_natAbs u one).trans_lt hlt

/-- Half of a finite number is a finite binary64 number. -/
theorem half_of_finite {v : Num} (h : v.Finite) :
    ∃ x, v.half = .ok (.double x) ∧ x.isFinite = true := by
  cases v with
  | double x =>
    obtain ⟨y, hy, hf⟩ := h
    obtain rfl : x = y := by simpa [toDouble] using hy
    exact ⟨x.half, rfl, isFinite_half hf⟩
  | int n =>
    have hf := isFinite_roundUnits_half (decide (n < 0)) (isFinite_ofInt h)
    rw [Nat.one_mul] at hf
    exact ⟨_, by rw [half_int, ofRatio, inRange_of_isFinite hf]; rfl, hf⟩

/-- Half of a whole number of moderate size has a rounding of moderate size. -/
theorem roundHalfUp_half {v x : Num} (hv : v.IsWholeWithin (Nat.pow 2 50)) (hx : v.half = .ok x) :
    ∃ n, x.roundHalfUp = .ok n ∧ n.natAbs ≤ Nat.pow 2 50 := by
  obtain ⟨k, hk, hle⟩ := hv
  obtain ⟨y, rfl, hunits⟩ : ∃ y, x = .double y ∧ ∀ j, one = 2 * Nat.pow 2 j → j ≤ 2045 →
      y.units? = some (k * (Nat.pow 2 j : ℕ)) := by
    cases v with
    | double z =>
      obtain rfl := Except.ok.inj hx
      exact ⟨z.half, rfl, fun j hone hj => units?_half hk hle hone hj⟩
    | int n =>
      obtain rfl : n = k := by simpa [whole?] using hk
      rw [half_int] at hx
      obtain ⟨y, hy, rfl⟩ := map_eq_ok.1 hx
      obtain rfl := eq_of_inRange hy
      exact ⟨_, rfl, fun j hone hj => units?_ofRatio_two hle hone hj⟩
  refine ⟨Int.fdiv (k + 1) 2, ?_, ?_⟩
  · rw [roundHalfUp]
    change wholePart floor? (y.add oneHalf) = _
    rw [wholePart, floor?_add_oneHalf_of_halves hle hunits]
  · rw [Int.fdiv_eq_ediv_of_nonneg _ (by decide)]
    rw [show Nat.pow 2 50 = 1125899906842624 from rfl] at hle ⊢
    omega

end SceneScript.Num
