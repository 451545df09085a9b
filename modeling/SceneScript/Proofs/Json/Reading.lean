import SceneScript.Json.Reader
import SceneScript.Proofs.Number.Digits
import SceneScript.Proofs.Table
import SceneScript.Proofs.Traversal

/-!
# What is read from a text

A property that scalars have, and that arrays and objects have when their parts do, holds of
everything that is read (`Json.Kept.of_parse`). So what is read from a text has no name twice in any
object (`Json.hasDistinctNames_of_parse`), and its whole numbers have few enough digits to be read
again (`Json.short_of_parse`).
-/

namespace SceneScript

namespace Json

/-! ## Distinct names -/

mutual

/-- Whether no object in a value has a name twice. -/
def hasDistinctNames : Json → Bool
  | .arr items => itemsHaveDistinctNames items
  | .obj members => decide (Entries.keys members).Nodup && membersHaveDistinctNames members
  | _ => true

/-- Whether no object in some items has a name twice. -/
def itemsHaveDistinctNames : List Json → Bool
  | [] => true
  | v :: vs => hasDistinctNames v && itemsHaveDistinctNames vs

/-- Whether no object in the values of some members has a name twice. -/
def membersHaveDistinctNames : List (String × Json) → Bool
  | [] => true
  | (_, v) :: members => hasDistinctNames v && membersHaveDistinctNames members

end

theorem itemsHaveDistinctNames_iff {items : List Json} :
    itemsHaveDistinctNames items = true ↔ ∀ v ∈ items, v.hasDistinctNames = true := by
  induction items with
  | nil => simp [itemsHaveDistinctNames]
  | cons v vs ih => simp [itemsHaveDistinctNames, ih]

theorem membersHaveDistinctNames_iff {members : List (String × Json)} :
    membersHaveDistinctNames members = true ↔ ∀ m ∈ members, m.2.hasDistinctNames = true := by
  induction members with
  | nil => simp [membersHaveDistinctNames]
  | cons m members ih => simp [membersHaveDistinctNames, ih]

theorem hasDistinctNames_arr {items : List Json} :
    (Json.arr items).hasDistinctNames = true ↔ ∀ v ∈ items, v.hasDistinctNames = true := by
  rw [hasDistinctNames, itemsHaveDistinctNames_iff]

theorem hasDistinctNames_obj {members : List (String × Json)} :
    (Json.obj members).hasDistinctNames = true ↔
      (Entries.keys members).Nodup ∧ ∀ m ∈ members, m.2.hasDistinctNames = true := by
  rw [hasDistinctNames, Bool.and_eq_true, decide_eq_true_iff, membersHaveDistinctNames_iff]

/-- An object that is built of members has no name twice. -/
theorem hasDistinctNames_object {members : List (String × Json)}
    (h : ∀ m ∈ members, m.2.hasDistinctNames = true) :
    (Json.object members).hasDistinctNames = true := by
  refine hasDistinctNames_obj.2 ⟨Entries.nodup_foldl_insert members List.nodup_nil, fun m hm => ?_⟩
  rcases Entries.mem_of_mem_foldl_insert hm with hm | hm
  · cases hm
  · exact h m hm

/-! ## Numbers -/

theorem numbers_subset_of_mem {members : List (String × Json)} {member : String × Json}
    (h : member ∈ members) : member.2.numbers ⊆ (obj members).numbers := by
  rw [numbers]
  induction members with
  | nil => cases h
  | cons entry members ih =>
    obtain ⟨name, value⟩ := entry
    rw [memberNumbers]
    rcases List.mem_cons.1 h with rfl | h
    · exact List.subset_append_left _ _
    · exact List.subset_append_of_subset_right _ (ih h)

theorem numbers_subset_of_get? {members : List (String × Json)} {name : String} {v : Json}
    (h : Entries.get? members name = some v) : v.numbers ⊆ (obj members).numbers :=
  numbers_subset_of_mem (Entries.mem_of_get? h)

/-- The numbers of an array are those of its items. -/
theorem mem_numbers_arr {items : List Json} {n : Num} :
    n ∈ (arr items).numbers ↔ ∃ v ∈ items, n ∈ v.numbers := by
  rw [numbers]
  induction items with
  | nil => simp [itemNumbers]
  | cons item items ih => simp [itemNumbers, ih]

/-- The numbers of an object are those of its members. -/
theorem mem_numbers_obj {members : List (String × Json)} {n : Num} :
    n ∈ (obj members).numbers ↔ ∃ m ∈ members, n ∈ m.2.numbers := by
  rw [numbers]
  induction members with
  | nil => simp [memberNumbers]
  | cons m members ih => simp [memberNumbers, ih]

/-- That the numbers in a value have a property. -/
def Holds (P : Num → Prop) (v : Json) : Prop := ∀ n ∈ v.numbers, P n

section Holds

variable {P : Num → Prop}

theorem holds_num {n : Num} : (num n).Holds P ↔ P n := List.forall_mem_singleton

theorem holds_str (s : String) : (str s).Holds P := List.forall_mem_nil _

theorem holds_arr {items : List Json} : (arr items).Holds P ↔ ∀ v ∈ items, v.Holds P := by
  constructor
  · exact fun h v hv n hn => h n (mem_numbers_arr.2 ⟨v, hv, hn⟩)
  · intro h n hn
    obtain ⟨v, hv, hn⟩ := mem_numbers_arr.1 hn
    exact h v hv n hn

theorem holds_obj {members : List (String × Json)} :
    (obj members).Holds P ↔ ∀ m ∈ members, m.2.Holds P := by
  constructor
  · exact fun h m hm n hn => h n (mem_numbers_obj.2 ⟨m, hm, hn⟩)
  · intro h n hn
    obtain ⟨m, hm, hn⟩ := mem_numbers_obj.1 hn
    exact h m hm n hn

end Holds

/-! ## Values that can be shown -/

theorem isShort_iff {v : Json} : v.isShort = true ↔ v.Holds Num.Short := by
  simp only [isShort, List.all_eq_true, Num.isShort_iff, Holds]

theorem isShort_of_mem {members : List (String × Json)} {member : String × Json}
    (h : member ∈ members) (hshort : (obj members).isShort = true) : member.2.isShort = true :=
  isShort_iff.2 (holds_obj.1 (isShort_iff.1 hshort) member h)

theorem isShort_of_mem_arr {items : List Json} {item : Json} (h : item ∈ items)
    (hshort : (arr items).isShort = true) : item.isShort = true :=
  isShort_iff.2 (holds_arr.1 (isShort_iff.1 hshort) item h)

/-- A value is not shown exactly when it has a whole number of too many digits. -/
theorem shown_eq_error_iff {v : Json} {e : NumberError} :
    v.shown = .error e ↔ e = .tooLong ∧ ¬ v.isShort := by
  rw [shown, ifShort]
  cases v.isShort <;> simp [eq_comm]

/-- A value is no text exactly when it has a whole number of too many digits. -/
theorem text_eq_error_iff {v : Json} {e : NumberError} :
    v.text = .error e ↔ e = .tooLong ∧ ¬ v.isShort := by
  cases v with
  | str s => simp [text, isShort, numbers]
  | _ =>
    rw [text, map_eq_error, shown_eq_error_iff]
    nofun

theorem isShort_of_text {v : Json} {s : String} (h : v.text = .ok s) : v.isShort = true := by
  by_contra hlong
  cases h.symm.trans (text_eq_error_iff.2 ⟨rfl, hlong⟩)

theorem exists_text {v : Json} (h : v.Holds Num.Short) : ∃ s, v.text = .ok s := by
  cases htext : v.text with
  | error e => exact absurd (isShort_iff.2 h) (text_eq_error_iff.1 htext).2
  | ok s => exact ⟨s, rfl⟩

/-! ## Reading -/

/-- What a reader gives is of a kind, if it gives anything. -/
def Gives {α : Type} (P : α → Prop) (r : Except Failure (α × List Char)) : Prop :=
  ∀ a rest, r = .ok (a, rest) → P a

theorem gives_map {α β : Type} {P : α → Prop} {Q : β → Prop} {f : α → β}
    {r : Except Failure (α × List Char)} (h : Gives P r) (hf : ∀ a, P a → Q (f a)) :
    Gives Q (r.map fun (a, rest) => (f a, rest)) := by
  intro b rest hb
  obtain ⟨⟨a, rest'⟩, rfl, heq⟩ := map_eq_ok.1 hb
  cases heq
  exact hf a (h a rest rfl)

theorem gives_ok {α : Type} {P : α → Prop} {a : α} {rest : List Char} (h : P a) :
    Gives P (.ok (a, rest)) := by
  intro b rest' hb
  cases hb
  exact h

theorem gives_error {α : Type} {P : α → Prop} {e : Failure} : Gives P (.error e) := nofun

theorem gives_true {α : Type} (r : Except Failure (α × List Char)) : Gives (fun _ => True) r :=
  fun _ _ _ => trivial

/-- A property that what is read has when its parts have it. -/
structure Kept (P : Json → Prop) : Prop where
  null : P .null
  bool : ∀ b, P (.bool b)
  str : ∀ s, P (.str s)
  double : ∀ x, P (.num (.double x))
  number : ∀ s r, number s = some r → Gives (fun n => P (.num n)) r
  arr : ∀ items, (∀ v ∈ items, P v) → P (.arr items)
  object : ∀ members : List (String × Json), (∀ m ∈ members, P m.2) → P (.object members)

namespace Kept

variable {P : Json → Prop} (hP : Kept P) {fuel : ℕ}

include hP

theorem gives_value (hitems : ∀ s, Gives (fun vs => ∀ v ∈ vs, P v) (items fuel s))
    (hmembers : ∀ s, Gives (fun ms : List (String × Json) => ∀ m ∈ ms, P m.2) (members fuel s))
    (s : List Char) : Gives P (value (fuel + 1) s) := by
  rw [value.eq_def]
  dsimp only
  split
  · exact gives_error
  · split_ifs
    · exact gives_map (gives_true _) fun t _ => hP.str t
    · split
      · exact gives_ok (hP.arr [] (List.forall_mem_nil _))
      · exact gives_map (hitems _) hP.arr
    · split
      · exact gives_ok (hP.object [] (List.forall_mem_nil _))
      · exact gives_map (hmembers _) hP.object
    · split
      · exact gives_ok hP.null
      split
      · exact gives_ok (hP.bool true)
      split
      · exact gives_ok (hP.bool false)
      iterate 3
        split
        · exact gives_ok (hP.double _)
      split
      · next r hr => exact gives_map (hP.number _ r hr) fun _ h => h
      · exact gives_error

omit hP in
theorem gives_items (hvalue : ∀ s, Gives P (value fuel s))
    (hitems : ∀ s, Gives (fun vs => ∀ v ∈ vs, P v) (items fuel s)) (s : List Char) :
    Gives (fun vs => ∀ v ∈ vs, P v) (items (fuel + 1) s) := by
  intro vs rest h
  obtain ⟨⟨v, after⟩, hv, h⟩ := bind_eq_ok.1 h
  have hv := hvalue s v after hv
  dsimp only at h
  split at h
  · cases h
    simpa using hv
  · obtain ⟨⟨ws, after'⟩, hws, h⟩ := bind_eq_ok.1 h
    cases h
    exact List.forall_mem_cons.2 ⟨hv, hitems _ ws _ hws⟩
  · cases h

omit hP in
theorem gives_members (hvalue : ∀ s, Gives P (value fuel s))
    (hmembers : ∀ s, Gives (fun ms : List (String × Json) => ∀ m ∈ ms, P m.2) (members fuel s))
    (s : List Char) :
    Gives (fun ms : List (String × Json) => ∀ m ∈ ms, P m.2) (members (fuel + 1) s) := by
  rw [members.eq_def]
  dsimp only
  split
  · intro ms rest h
    obtain ⟨⟨name, after⟩, -, h⟩ := bind_eq_ok.1 h
    dsimp only at h
    split at h
    · obtain ⟨⟨v, after'⟩, hv, h⟩ := bind_eq_ok.1 h
      have hv := hvalue _ v after' hv
      dsimp only at h
      split at h
      · cases h
        simpa using hv
      · obtain ⟨⟨ns, after''⟩, hns, h⟩ := bind_eq_ok.1 h
        cases h
        exact List.forall_mem_cons.2 ⟨hv, hmembers _ ns _ hns⟩
      · cases h
    · cases h
  · exact gives_error

/-- However far a reader looks, what it reads has the property. -/
theorem gives_of_fuel (fuel : ℕ) :
    (∀ s, Gives P (value fuel s)) ∧ (∀ s, Gives (fun vs => ∀ v ∈ vs, P v) (items fuel s)) ∧
      ∀ s, Gives (fun ms : List (String × Json) => ∀ m ∈ ms, P m.2) (members fuel s) := by
  induction fuel with
  | zero => exact ⟨fun _ => gives_error, fun _ => gives_error, fun _ => gives_error⟩
  | succ fuel ih =>
    obtain ⟨hvalue, hitems, hmembers⟩ := ih
    exact ⟨hP.gives_value hitems hmembers, gives_items hvalue hitems, gives_members hvalue hmembers⟩

theorem of_parse {text : List Char} {v : Json} (h : parse text = .ok v) : P v := by
  unfold parse at h
  split at h
  · cases h
  · obtain ⟨⟨w, rest⟩, hw, h⟩ := bind_eq_ok.1 (mapError_eq_ok.1 h)
    dsimp only at h
    split at h
    · cases h
      exact (hP.gives_of_fuel _).1 _ v rest hw
    · cases h

end Kept

theorem kept_hasDistinctNames : Kept fun v => v.hasDistinctNames = true where
  null := rfl
  bool _ := rfl
  str _ := rfl
  double _ := rfl
  number _ _ _ _ _ _ := rfl
  arr _ := hasDistinctNames_arr.2
  object _ := hasDistinctNames_object

/-- What is read from a text has no name twice in any object. -/
theorem hasDistinctNames_of_parse {text : List Char} {v : Json} (h : parse text = .ok v) :
    v.hasDistinctNames = true :=
  kept_hasDistinctNames.of_parse h

/-! ## Numbers that are read -/

/-- A number that is read has few digits, whatever its sign. -/
theorem gives_unsignedNumber {negative : Bool} {s : List Char}
    {r : Except Failure (Num × List Char)} (h : unsignedNumber negative s = some r) :
    Gives Num.Short r := by
  obtain ⟨⟨whole, after⟩, -, rfl⟩ := Option.map_eq_some_iff.1 h
  dsimp only
  split
  · split
    · exact gives_error
    next hfew =>
    refine gives_ok fun n hn => ?_
    have habs : n.natAbs = Text.natOfDigits whole := by
      rw [← Num.int.inj hn]
      cases negative <;> simp
    rw [habs]
    exact length_decimalDigits_natOfDigits (Nat.le_of_not_lt hfew)
  · exact gives_ok (Num.short_double _)

theorem gives_number (s : List Char) {r : Except Failure (Num × List Char)}
    (h : number s = some r) : Gives Num.Short r := by
  unfold number at h
  split at h <;> exact gives_unsignedNumber h

theorem kept_short : Kept (Holds Num.Short) where
  null := List.forall_mem_nil _
  bool _ := List.forall_mem_nil _
  str := holds_str
  double x := holds_num.2 (Num.short_double x)
  number s _ hr n rest h := holds_num.2 (gives_number s hr n rest h)
  arr _ := holds_arr.2
  object _ h := holds_obj.2 fun m hm => (Entries.mem_of_mem_foldl_insert hm).elim (nomatch ·) (h m)

/-- The numbers that are read from a text have few enough digits to be read. -/
theorem short_of_parse {text : List Char} {v : Json} (h : parse text = .ok v) :
    v.Holds Num.Short :=
  kept_short.of_parse h

end Json

end SceneScript
