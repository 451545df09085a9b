import Mathlib.Data.List.InsertIdx
import Mathlib.Data.List.Pairwise
import Mathlib.Data.List.Perm.Basic
import Mathlib.Order.Lattice
import SceneScript.Sorting

/-!
# Sorting by a key

When the comparison is that of a key in a linear order, sorting by insertion gives the values in the
order of their keys, none lost and none doubled.

Main statement: such values are sorted (`exists_sort?`).
-/

namespace SceneScript.Sorting

variable {α κ : Type} [LinearOrder κ]

/-- The comparison finds that values are in the order of their keys. -/
def ComparesBy (before? : α → α → Option Bool) (key : α → κ) (vs : List α) : Prop :=
  ∀ v ∈ vs, ∀ w ∈ vs, before? v w = some (decide (key v < key w))

/-- Values are in the order of their keys. -/
def Ordered (key : α → κ) (vs : List α) : Prop := vs.Pairwise fun v w => key v ≤ key w

variable {before? : α → α → Option Bool} {key : α → κ}

theorem ComparesBy.of_subset {vs ws : List α} (h : ComparesBy before? key ws) (hsub : vs ⊆ ws) :
    ComparesBy before? key vs := fun v hv w hw => h v (hsub hv) w (hsub hw)

theorem Ordered.le {vs : List α} (h : Ordered key vs) {i j : ℕ} (hij : i ≤ j) {v w : α}
    (hv : vs[i]? = some v) (hw : vs[j]? = some w) : key v ≤ key w := by
  obtain ⟨hi, rfl⟩ := List.getElem?_eq_some_iff.1 hv
  obtain ⟨hj, rfl⟩ := List.getElem?_eq_some_iff.1 hw
  rcases Nat.lt_or_eq_of_le hij with hlt | rfl
  · exact List.pairwise_iff_getElem.1 h i j hi hj hlt
  · exact le_rfl

instance isTrans_le (key : α → κ) : IsTrans α fun v w => key v ≤ key w :=
  ⟨fun _ _ _ => le_trans⟩

instance isTrans_ge (key : α → κ) : IsTrans α fun v w => key w ≤ key v :=
  ⟨fun _ _ _ h h' => h'.trans h⟩

/-! ## The first run -/

theorem exists_climb {last : α} {vs : List α} (h : ComparesBy before? key (last :: vs)) :
    ∃ run rest, climb before? last vs = some (run, rest) ∧ run ++ rest = vs ∧
      Ordered key (last :: run) := by
  induction vs generalizing last with
  | nil => exact ⟨[], [], rfl, rfl, List.pairwise_singleton _ last⟩
  | cons v vs ih =>
    have hv := h v (by simp) last (by simp)
    by_cases hlt : key v < key last
    · refine ⟨[], v :: vs, ?_, rfl, List.pairwise_singleton _ last⟩
      simp [climb, hv, hlt]
    · obtain ⟨run, rest, hrun, happend, hordered⟩ := ih (h.of_subset (List.subset_cons_self _ _))
      exact ⟨v :: run, rest, by simp [climb, hv, hlt, hrun], by rw [← happend]; rfl,
        List.Pairwise.cons_cons_of_trans (not_lt.1 hlt) hordered⟩

theorem exists_descend {last : α} {vs : List α} (h : ComparesBy before? key (last :: vs)) :
    ∃ run rest, descend before? last vs = some (run, rest) ∧ run ++ rest = vs ∧
      (last :: run).Pairwise fun v w => key w ≤ key v := by
  induction vs generalizing last with
  | nil => exact ⟨[], [], rfl, rfl, List.pairwise_singleton _ last⟩
  | cons v vs ih =>
    have hv := h v (by simp) last (by simp)
    by_cases hlt : key v < key last
    · obtain ⟨run, rest, hrun, happend, hordered⟩ := ih (h.of_subset (List.subset_cons_self _ _))
      exact ⟨v :: run, rest, by simp [descend, hv, hlt, hrun], by rw [← happend]; rfl,
        List.Pairwise.cons_cons_of_trans hlt.le hordered⟩
    · refine ⟨[], v :: vs, ?_, rfl, List.pairwise_singleton _ last⟩
      simp [descend, hv, hlt]

/-- The first run is in order, and with the rest it is all of the values. -/
theorem exists_firstRun {vs : List α} (h : ComparesBy before? key vs) :
    ∃ run rest, firstRun before? vs = some (run, rest) ∧ (run ++ rest).Perm vs ∧
      Ordered key run := by
  match vs, h with
  | [], _ => exact ⟨[], [], rfl, .nil, .nil⟩
  | [v], _ => exact ⟨[v], [], rfl, .refl _, List.pairwise_singleton _ v⟩
  | v :: w :: vs, h =>
    have hw := h w (by simp) v (by simp)
    have hrest := h.of_subset (List.subset_cons_self v (w :: vs))
    by_cases hlt : key w < key v
    · obtain ⟨run, rest, hrun, rfl, hordered⟩ := exists_descend hrest
      exact ⟨(v :: w :: run).reverse, rest, by simp [firstRun, hw, hlt, hrun],
        (List.reverse_perm _).append_right rest,
        List.pairwise_reverse.2 (List.Pairwise.cons_cons_of_trans hlt.le hordered)⟩
    · obtain ⟨run, rest, hrun, rfl, hordered⟩ := exists_climb hrest
      exact ⟨v :: w :: run, rest, by simp [firstRun, hw, hlt, hrun], .refl _,
        List.Pairwise.cons_cons_of_trans (not_lt.1 hlt) hordered⟩

/-! ## Places -/

/-- A place divides values by a key: none in front is greater, all behind are. -/
def Divides (key : α → κ) (v : α) (vs : List α) (i : ℕ) : Prop :=
  (∀ w ∈ vs.take i, key w ≤ key v) ∧ ∀ w ∈ vs.drop i, key v < key w

theorem Ordered.le_of_mem_take {vs : List α} (h : Ordered key vs) {i : ℕ} {v w : α}
    (hv : vs[i]? = some v) (hw : w ∈ vs.take (i + 1)) : key w ≤ key v := by
  obtain ⟨j, hj⟩ := List.mem_iff_getElem?.1 hw
  rw [List.getElem?_take, Option.ite_none_right_eq_some] at hj
  exact h.le (Nat.lt_succ_iff.1 hj.1) hj.2 hv

theorem Ordered.le_of_mem_drop {vs : List α} (h : Ordered key vs) {i : ℕ} {v w : α}
    (hv : vs[i]? = some v) (hw : w ∈ vs.drop i) : key v ≤ key w := by
  obtain ⟨j, hj⟩ := List.mem_iff_getElem?.1 hw
  rw [List.getElem?_drop] at hj
  exact h.le (Nat.le_add_right i j) hv hj

/-- Bisection finds a place that divides, when the bounds enclose one. -/
theorem exists_place? {sorted : Array α} {v : α} (hsorted : Ordered key sorted.toList)
    (h : ∀ w ∈ sorted.toList, before? v w = some (decide (key v < key w))) {low high : ℕ}
    (hle : low ≤ high) (hhigh : high ≤ sorted.size)
    (hbelow : ∀ w ∈ sorted.toList.take low, key w ≤ key v)
    (habove : ∀ w ∈ sorted.toList.drop high, key v < key w) :
    ∃ i ≤ sorted.size, place? before? sorted v low high = some i ∧
      Divides key v sorted.toList i := by
  fun_induction place? before? sorted v low high with
  | case1 low high hlt middle hnone =>
    have hmiddle := Array.getElem?_eq_none_iff.1 hnone
    omega
  | case2 low high hlt middle w hget hnone =>
    have hmem := Array.mem_toList_iff.2 (Array.mem_of_getElem? hget)
    exact absurd (hnone.symm.trans (h w hmem)) (by simp)
  | case3 low high hlt middle w hget hbefore ih =>
    have hmem := Array.mem_toList_iff.2 (Array.mem_of_getElem? hget)
    have hkey : key v < key w := by simpa [hbefore] using h w hmem
    rw [← Array.getElem?_toList] at hget
    exact ih (by omega) (by omega) hbelow
      fun u hu => hkey.trans_le (hsorted.le_of_mem_drop hget hu)
  | case4 low high hlt middle w hget hbefore ih =>
    have hmem := Array.mem_toList_iff.2 (Array.mem_of_getElem? hget)
    have hkey : key w ≤ key v := by simpa [hbefore] using h w hmem
    rw [← Array.getElem?_toList] at hget
    exact ih (by omega) hhigh (fun u hu => (hsorted.le_of_mem_take hget hu).trans hkey) habove
  | case5 low high hge =>
    obtain rfl : low = high := by omega
    exact ⟨low, hhigh, rfl, hbelow, habove⟩

/-! ## Insertions -/

/-- A value put into a place that divides leaves the values in order. -/
theorem Divides.ordered {v : α} {vs : List α} {i : ℕ} (h : Divides key v vs i)
    (hvs : Ordered key vs) : Ordered key (vs.take i ++ v :: vs.drop i) := by
  rw [Ordered, ← List.take_append_drop i vs, List.pairwise_append] at hvs
  refine List.pairwise_append.2 ⟨hvs.1, List.pairwise_cons.2 ⟨fun w hw => (h.2 w hw).le, hvs.2.1⟩,
    fun u hu w hw => ?_⟩
  rcases List.mem_cons.1 hw with rfl | hw
  · exact h.1 u hu
  · exact hvs.2.2 u hu w hw

theorem insertIdx_eq (vs : List α) {i : ℕ} (hi : i ≤ vs.length) (v : α) :
    vs.insertIdx i v = vs.take i ++ v :: vs.drop i := by
  induction vs generalizing i with
  | nil =>
    obtain rfl : i = 0 := Nat.le_zero.1 hi
    rfl
  | cons w vs ih =>
    cases i with
    | zero => rfl
    | succ i => rw [List.insertIdx_succ_cons, ih (Nat.le_of_succ_le_succ hi)]; rfl

theorem toList_insertIdxIfInBounds (sorted : Array α) {i : ℕ} (hi : i ≤ sorted.size) (v : α) :
    (sorted.insertIdxIfInBounds i v).toList =
      sorted.toList.take i ++ v :: sorted.toList.drop i := by
  rw [Array.insertIdxIfInBounds, dif_pos hi, Array.toList_insertIdx,
    insertIdx_eq _ (by simpa using hi)]

/-- Putting in values that the comparison finds in the order of their keys keeps the order. -/
theorem exists_insertAll {sorted : Array α} {vs : List α}
    (h : ComparesBy before? key (sorted.toList ++ vs)) (hsorted : Ordered key sorted.toList) :
    ∃ result, insertAll before? sorted vs = some result ∧
      result.toList.Perm (sorted.toList ++ vs) ∧ Ordered key result.toList := by
  induction vs generalizing sorted with
  | nil => exact ⟨sorted, rfl, by simp, hsorted⟩
  | cons v vs ih =>
    have hv : ∀ w ∈ sorted.toList, before? v w = some (decide (key v < key w)) := fun w hw =>
      h v (by simp) w (List.mem_append_left _ hw)
    have hall : sorted.toList.drop sorted.size = [] := List.drop_of_length_le (by simp)
    obtain ⟨i, hi, hplace, hdivides⟩ := exists_place? hsorted hv (Nat.zero_le sorted.size)
      (Nat.le_refl _) (by simp) (by simp [hall])
    have htoList := toList_insertIdxIfInBounds sorted hi v
    have hperm : (sorted.insertIdxIfInBounds i v).toList.Perm (v :: sorted.toList) := by
      rw [htoList]
      exact List.perm_middle.trans (.cons v (.of_eq (List.take_append_drop i sorted.toList)))
    have hperm' : ((sorted.insertIdxIfInBounds i v).toList ++ vs).Perm (sorted.toList ++ v :: vs) :=
      (hperm.append_right vs).trans List.perm_middle.symm
    obtain ⟨result, hresult, hperm₁, hordered⟩ :=
      ih (h.of_subset hperm'.subset) (htoList ▸ hdivides.ordered hsorted)
    exact ⟨result, by rw [insertAll, hplace]; exact hresult, hperm₁.trans hperm', hordered⟩

/-- Values that the comparison finds in the order of their keys are sorted. -/
theorem exists_sort? {vs : List α} (h : ComparesBy before? key vs) :
    ∃ sorted, sort? before? vs = some sorted ∧ sorted.Perm vs ∧ Ordered key sorted := by
  obtain ⟨run, rest, hrun, hperm, hordered⟩ := exists_firstRun h
  have hall : ComparesBy before? key (run.toArray.toList ++ rest) := h.of_subset hperm.subset
  obtain ⟨result, hresult, hperm', hordered'⟩ := exists_insertAll hall hordered
  exact ⟨result.toList, by simp [sort?, hrun, hresult], hperm'.trans hperm, hordered'⟩

end SceneScript.Sorting
