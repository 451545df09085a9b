import SceneScript.Proofs.Number.Finite

/-!
# Sums of numbers

Numbers are added up one after the other, whole ones exactly, so a sum only fails where a whole
number too large for binary64 meets a binary64 one. Up to the first binary64 number that is the sum
so far, from there on each number that is added.

Main statement: which numbers can be added up (`exists_total_iff`), so that one more is either added
or makes the sum fail (`add_of_total`).
-/

namespace SceneScript.Num

/-- Whether a number is in the range of binary64; any binary64 number is. -/
def Fits (v : Num) : Prop := ∃ x, v.toDouble = .ok x

/-- The sum of some numbers, added from zero on. -/
def total (ds : List Num) : Except NumberError Num := ds.foldlM add 0

/-- Whether some numbers can be added up: what the whole ones in front of the first binary64 number
come to is in its range, and so is every number behind it. -/
def Addable (ds : List Num) : Prop :=
  ∀ (ns : List ℤ) x rest, ds = ns.map .int ++ .double x :: rest →
    (int ns.sum).Fits ∧ ∀ d ∈ rest, d.Fits

variable {ds : List Num} {error : NumberError}

theorem error_of_toDouble {v : Num} (h : v.toDouble = .error error) : error = .integerTooLarge := by
  cases v with
  | double x => cases h
  | int n =>
    rw [toDouble_int] at h
    generalize Binary64.ofInt n = x at h
    cases x with
    | infinite negative => exact (Except.error.inj h).symm
    | nan => cases h
    | finite negative mantissa shift hc => cases h

theorem add_int_int (a b : ℤ) : (int a).add (int b) = .ok (int (a + b)) := rfl

theorem add_double_left (x : Binary64) (v : Num) :
    (double x).add v = v.toDouble.map fun y => double (x.add y) := by
  simp only [add, toDouble.eq_1]
  cases v.toDouble <;> rfl

theorem add_double_right (v : Num) (x : Binary64) :
    v.add (double x) = v.toDouble.map fun y => double (y.add x) := by
  simp only [add, toDouble.eq_1]
  cases v.toDouble <;> rfl

/-- A sum fails in one way only. -/
theorem error_of_add {v w : Num} (h : v.add w = .error error) : error = .integerTooLarge := by
  have hmap : ∀ {u : Num} {f : Binary64 → Num}, u.toDouble.map f = .error error →
      error = .integerTooLarge := by
    intro u f h
    cases hu : u.toDouble with
    | error e =>
      rw [hu] at h
      exact Except.error.inj h ▸ error_of_toDouble hu
    | ok x =>
      rw [hu] at h
      cases h
  cases v with
  | double x => exact hmap (add_double_left x w ▸ h)
  | int a =>
    cases w with
    | int b => cases h
    | double x => exact hmap (add_double_right _ x ▸ h)

/-- To a binary64 number any numbers of its range are added. -/
theorem exists_foldlM_add_double (x : Binary64) :
    (∃ v, ds.foldlM add (double x) = .ok v) ↔ ∀ d ∈ ds, d.Fits := by
  induction ds generalizing x with
  | nil => exact iff_of_true ⟨_, rfl⟩ (by simp)
  | cons d ds ih =>
    rw [List.foldlM_cons, exists_bind_eq_ok, List.forall_mem_cons, add_double_left]
    constructor
    · rintro ⟨v, hv, hds⟩
      obtain ⟨y, hy, rfl⟩ := map_eq_ok.1 hv
      exact ⟨⟨y, hy⟩, (ih _).1 hds⟩
    · rintro ⟨⟨y, hy⟩, hds⟩
      exact ⟨_, map_eq_ok.2 ⟨y, hy, rfl⟩, (ih _).2 hds⟩

/-- To a whole number whole ones are added exactly, up to the first binary64 number. -/
theorem exists_foldlM_add_int (a : ℤ) :
    (∃ v, ds.foldlM add (int a) = .ok v) ↔
      ∀ (ns : List ℤ) x rest, ds = ns.map .int ++ .double x :: rest →
        (int (a + ns.sum)).Fits ∧ ∀ d ∈ rest, d.Fits := by
  induction ds generalizing a with
  | nil => exact iff_of_true ⟨_, rfl⟩ (by simp)
  | cons d ds ih =>
    rw [List.foldlM_cons, exists_bind_eq_ok]
    cases d with
    | int b =>
      simp only [add_int_int, Except.ok.injEq, exists_eq_left', ih]
      constructor
      · rintro h (_ | ⟨n, ns⟩) x rest heq
        · cases heq
        · obtain ⟨rfl, rfl⟩ : b = n ∧ ds = ns.map .int ++ .double x :: rest := by
            simpa using heq
          rw [List.sum_cons, ← add_assoc]
          exact h ns x rest rfl
      · rintro h ns x rest rfl
        have := h (b :: ns) x rest rfl
        rwa [List.sum_cons, ← add_assoc] at this
    | double y =>
      rw [add_double_right]
      constructor
      · rintro ⟨v, hv, hds⟩ (_ | ⟨n, ns⟩) x rest heq
        · obtain ⟨rfl, rfl⟩ : y = x ∧ ds = rest := by simpa using heq
          obtain ⟨z, hz, rfl⟩ := map_eq_ok.1 hv
          rw [List.sum_nil, add_zero]
          exact ⟨⟨z, hz⟩, (exists_foldlM_add_double _).1 hds⟩
        · cases heq
      · intro h
        obtain ⟨⟨z, hz⟩, hds⟩ := h [] y ds rfl
        rw [List.sum_nil, add_zero] at hz
        exact ⟨_, map_eq_ok.2 ⟨z, hz, rfl⟩, (exists_foldlM_add_double _).2 hds⟩

/-- Numbers have a sum exactly if they can be added up. -/
theorem exists_total_iff : (∃ v, total ds = .ok v) ↔ Addable ds := by
  have : (∃ v, ds.foldlM add (int 0) = .ok v) ↔ _ := exists_foldlM_add_int 0
  simp only [zero_add] at this
  exact this

theorem total_concat (ds : List Num) (d : Num) :
    total (ds ++ [d]) = total ds >>= fun v => v.add d := by
  rw [total, List.foldlM_append]
  refine bind_congr fun v => ?_
  rw [List.foldlM_cons]
  exact bind_pure _

/-- One more number is added to a sum, or the numbers cannot be added up any more. -/
theorem add_of_total {v : Num} (h : total ds = .ok v) (d : Num) :
    (∃ w, v.add d = .ok w ∧ total (ds ++ [d]) = .ok w) ∨
      (v.add d = .error .integerTooLarge ∧ ¬ Addable (ds ++ [d])) := by
  have htotal : total (ds ++ [d]) = v.add d := by
    rw [total_concat, h]
    rfl
  cases hv : v.add d with
  | ok w => exact .inl ⟨w, rfl, htotal.trans hv⟩
  | error e =>
    obtain rfl := error_of_add hv
    refine .inr ⟨rfl, fun hadd => ?_⟩
    obtain ⟨w, hw⟩ := exists_total_iff.2 hadd
    rw [htotal, hv] at hw
    cases hw

end SceneScript.Num
