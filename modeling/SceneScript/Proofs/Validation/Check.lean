import Mathlib.Data.List.Chain
import Mathlib.Data.List.TakeWhile
import Mathlib.Data.String.Basic
import SceneScript.Proofs.Sorting
import SceneScript.Proofs.Traversal
import SceneScript.Validation.Check

/-!
# What checks find

A check that finds nothing says something about the value: there is one lemma for every check that
others are put together from, and a put-together check is read by rewriting with them.

Main statement: texts are found to be distinct exactly when they are, although only neighbours in
sorted order are looked at (`Check.unique_eq_nil`).
-/

namespace SceneScript.Validation

/-- A text that is not empty and has no white space, save for one line break at its end. -/
def Solid (s : String) : Prop :=
  ∃ body : List Char, body ≠ [] ∧ (∀ c ∈ body, Text.isBlank c = false) ∧
    (s.toList = body ∨ s.toList = body ++ ['\n'])

/-- A text with a character that is not white space. -/
def Visible (s : String) : Prop := ∃ c ∈ s.toList, Text.isBlank c = false

theorem Solid.ne_empty {s : String} (h : Solid s) : s ≠ "" := by
  obtain ⟨body, hne, -, hs⟩ := h
  rintro rfl
  rcases hs with hs | hs
  · exact hne hs.symm
  · simp at hs

theorem Visible.ne_empty {s : String} (h : Visible s) : s ≠ "" := by
  obtain ⟨c, hc, -⟩ := h
  rintro rfl
  simp at hc

namespace Check

@[simp]
theorem found_ne_nil (message : Except NumberError (List Char)) (keyword : String) :
    found message keyword ≠ [] :=
  List.cons_ne_nil _ _

theorem all_eq_nil {checks : List Check} {v : Json} :
    all checks v = [] ↔ ∀ check ∈ checks, check v = [] := List.flatMap_eq_nil_iff

/-! ## Types -/

theorem ofTypes_eq_nil {types : List ValueType} {v : Json} :
    ofTypes types v = [] ↔ ∃ t ∈ types, ValueType.ofKind? v.kind = some t := by
  unfold ofTypes
  split
  · next t ht =>
    rw [ht]
    split
    · next hmem => exact iff_of_true rfl ⟨t, by simpa using hmem, rfl⟩
    · next hmem =>
      refine iff_of_false (found_ne_nil _ _) ?_
      rintro ⟨t', hmem', heq⟩
      obtain rfl := Option.some.inj heq
      exact hmem (by simpa using hmem')
  · next hnone =>
    rw [hnone]
    exact iff_of_false (found_ne_nil _ _) (by simp)

theorem ofTypes_object {v : Json} : ofTypes [.object] v = [] ↔ ∃ members, v = .obj members := by
  rw [ofTypes_eq_nil]
  rcases v with _ | _ | (_ | _) | _ | _ | _ <;> simp [Json.kind, Num.kind, ValueType.ofKind?]

theorem ofTypes_array {v : Json} : ofTypes [.array] v = [] ↔ ∃ items, v = .arr items := by
  rw [ofTypes_eq_nil]
  rcases v with _ | _ | (_ | _) | _ | _ | _ <;> simp [Json.kind, Num.kind, ValueType.ofKind?]

theorem ofTypes_string {v : Json} : ofTypes [.string] v = [] ↔ ∃ s, v = .str s := by
  rw [ofTypes_eq_nil]
  rcases v with _ | _ | (_ | _) | _ | _ | _ <;> simp [Json.kind, Num.kind, ValueType.ofKind?]

theorem ofTypes_number {v : Json} : ofTypes [.number] v = [] ↔ ∃ n, v = .num n := by
  rw [ofTypes_eq_nil]
  rcases v with _ | _ | (_ | _) | _ | _ | _ <;> simp [Json.kind, Num.kind, ValueType.ofKind?]

/-! ## Texts and numbers -/

theorem isText_iff {v : Json} {s : String} : v.isText s = true ↔ v = .str s := by
  cases v <;> simp [Json.isText]

theorem constant_eq_nil {v : Json} {s : String} : constant s v = [] ↔ v = .str s := by
  rw [constant, ← isText_iff]
  split <;> simp_all

theorem oneOf_eq_nil {v : Json} {texts : List String} :
    oneOf texts v = [] ↔ ∃ t ∈ texts, v = .str t := by
  have hany : texts.any v.isText = true ↔ ∃ t ∈ texts, v = .str t := by
    simp [List.any_eq_true, isText_iff]
  rw [oneOf, ← hany]
  split <;> simp_all

theorem nonEmpty_eq_nil {s : String} : nonEmpty (.str s) = [] ↔ s ≠ "" := by
  rw [nonEmpty]
  split <;> simp_all [String.isEmpty_iff]

theorem pattern_eq_nil {text : String} {accepts : List Char → Bool} {s : String} :
    pattern text accepts (.str s) = [] ↔ accepts s.toList = true := by
  rw [pattern]
  split <;> simp_all

theorem solid_eq_nil {s : String} : solid (.str s) = [] ↔ Solid s := by
  rw [solid, pattern_eq_nil, Bool.and_eq_true, Bool.not_eq_true', List.isEmpty_eq_false_iff,
    Text.atEnd, Bool.or_eq_true, decide_eq_true_iff, decide_eq_true_iff]
  have hsplit : s.toList.takeWhile (fun c => !Text.isBlank c) ++
      s.toList.dropWhile (fun c => !Text.isBlank c) = s.toList :=
    List.takeWhile_append_dropWhile
  constructor
  · rintro ⟨hne, hend⟩
    refine ⟨_, hne, fun c hc => by simpa using List.mem_takeWhile_imp hc, ?_⟩
    rcases hend with hend | hend <;> rw [hend] at hsplit
    · exact .inl (by simpa using hsplit.symm)
    · exact .inr hsplit.symm
  · rintro ⟨body, hne, hplain, hs⟩
    have hbody : ∀ c ∈ body, (!Text.isBlank c) = true := fun c hc => by simp [hplain c hc]
    have hbreak : Text.isBlank '\n' = true := by decide
    rcases hs with hs | hs
    · have htake : s.toList.takeWhile (fun c => !Text.isBlank c) = body := by
        rw [hs]
        exact List.takeWhile_eq_self_iff.2 hbody
      rw [htake] at hsplit ⊢
      exact ⟨hne, .inl (by rw [hs] at hsplit ⊢; simpa using hsplit)⟩
    · have htake : s.toList.takeWhile (fun c => !Text.isBlank c) = body := by
        rw [hs, List.takeWhile_append_of_pos hbody]
        simp [hbreak]
      rw [htake] at hsplit ⊢
      exact ⟨hne, .inr (List.append_cancel_left (hsplit.trans hs))⟩

theorem visible_eq_nil {s : String} : visible (.str s) = [] ↔ Visible s := by
  rw [visible, pattern_eq_nil, Bool.not_eq_true', Text.isBlankText, List.all_eq_false, Visible]
  simp

theorem nonNegative_eq_nil {n : Num} : nonNegative (.num n) = [] ↔ n.lt 0 = false := by
  rw [nonNegative]
  split <;> simp_all

/-! ## Objects -/

variable {members : List (String × Json)}

theorem map_within_eq_nil {findings : List Finding} {part : PathPart} :
    findings.map (Finding.within part) = [] ↔ findings = [] := List.map_eq_nil_iff

theorem required_eq_nil {names : List String} :
    required names (.obj members) = [] ↔
      ∀ name ∈ names, ∃ v, Entries.get? members name = some v := by
  rw [required, List.flatMap_eq_nil_iff]
  refine forall₂_congr fun name _ => ?_
  cases Entries.get? members name <;> simp

theorem closed_eq_nil {known : List String} :
    closed known (.obj members) = [] ↔ ∀ m ∈ members, m.1 ∈ known := by
  have hextras : (extras known members).map Prod.fst = [] ↔ ∀ m ∈ members, m.1 ∈ known := by
    simp [extras, List.filter_eq_nil_iff]
  rw [closed, ← hextras]
  split <;> simp_all

theorem members_eq_nil {check : Check} :
    Check.members check (.obj members) = [] ↔ ∀ m ∈ members, check m.2 = [] := by
  rw [Check.members, List.flatMap_eq_nil_iff]
  exact forall₂_congr fun m _ => map_within_eq_nil

theorem properties_eq_nil {fields : List (String × Check)} :
    properties fields (.obj members) = [] ↔
      ∀ field ∈ fields, ∀ v, Entries.get? members field.1 = some v → field.2 v = [] := by
  rw [properties, List.flatMap_eq_nil_iff]
  refine forall₂_congr fun field _ => ?_
  cases Entries.get? members field.1 <;> simp

/-- Members that are required have to be there, and to pass their checks. -/
theorem required_properties_eq_nil {fields : List (String × Check)} :
    required (fields.map Prod.fst) (.obj members) = [] ∧ properties fields (.obj members) = [] ↔
      ∀ field ∈ fields, ∃ v, Entries.get? members field.1 = some v ∧ field.2 v = [] := by
  rw [required_eq_nil, properties_eq_nil]
  constructor
  · rintro ⟨hrequired, hproperties⟩ field hfield
    obtain ⟨v, hv⟩ := hrequired _ (List.mem_map_of_mem hfield)
    exact ⟨v, hv, hproperties field hfield v hv⟩
  · intro h
    refine ⟨fun name hname => ?_, fun field hfield v hv => ?_⟩
    · obtain ⟨field, hfield, rfl⟩ := List.mem_map.1 hname
      obtain ⟨v, hv, -⟩ := h field hfield
      exact ⟨v, hv⟩
    · obtain ⟨v', hv', hpass⟩ := h field hfield
      obtain rfl := Option.some.inj (hv.symm.trans hv')
      exact hpass

/-! ## Arrays -/

theorem itemsFrom_eq_nil {check : Check} {n : ℕ} {vs : List Json} :
    itemsFrom check n vs = [] ↔ ∀ v ∈ vs, check v = [] := by
  induction vs generalizing n with
  | nil => simp [itemsFrom]
  | cons v vs ih => simp [itemsFrom, ih]

theorem items_eq_nil {check : Check} {vs : List Json} :
    items check (.arr vs) = [] ↔ ∀ v ∈ vs, check v = [] := itemsFrom_eq_nil

theorem distinctNeighbours_map_str (same : Json.Sameness) (ids : List String) :
    distinctNeighbours same (ids.map .str) = true ↔ ids.IsChain (· ≠ ·) := by
  match ids with
  | [] => simp [distinctNeighbours]
  | [id] => simp [distinctNeighbours]
  | id :: id' :: ids =>
    have ih := distinctNeighbours_map_str same (id' :: ids)
    rw [List.map_cons] at ih
    simp [distinctNeighbours, ih, Json.eqv]

/-- Texts in order are distinct when neighbours are. -/
theorem nodup_of_isChain {ids : List String} (hordered : ids.Pairwise (· ≤ ·))
    (hchain : ids.IsChain (· ≠ ·)) : ids.Nodup := by
  have hle := hordered.isChain
  rw [List.isChain_iff_getElem] at hle hchain
  have hlt : ids.IsChain (· < ·) :=
    List.isChain_iff_getElem.2 fun i hi => lt_of_le_of_ne (hle i hi) (hchain i hi)
  exact (List.isChain_iff_pairwise.1 hlt).imp fun h => h.ne

theorem unique_eq_nil {origin : Json.Origin} {ids : List String} :
    unique origin (.arr (ids.map .str)) = [] ↔ ids.Nodup := by
  have hcompares : Sorting.ComparesBy (itemBefore? origin) Json.stringD (ids.map .str) := by
    intro v hv w hw
    obtain ⟨a, -, rfl⟩ := List.mem_map.1 hv
    obtain ⟨b, -, rfl⟩ := List.mem_map.1 hw
    simp [itemBefore?, Json.before?, Json.stringD, Json.string?]
  obtain ⟨sorted, hsort, hperm, hordered⟩ := Sorting.exists_sort? hcompares
  have hstr : (sorted.map Json.stringD).map Json.str = sorted := by
    rw [List.map_map]
    refine (List.map_congr_left fun v hv => ?_).trans (List.map_id _)
    obtain ⟨a, -, rfl⟩ := List.mem_map.1 (hperm.subset hv)
    rfl
  have hids : (ids.map Json.str).map Json.stringD = ids := by
    simp [Function.comp_def, Json.stringD, Json.string?]
  have hperm' : (sorted.map Json.stringD).Perm ids := hids ▸ hperm.map Json.stringD
  have hordered' : (sorted.map Json.stringD).Pairwise (· ≤ ·) := List.pairwise_map.2 hordered
  have hpasses : distinctNeighbours ⟨origin, false⟩ sorted = true ↔ ids.Nodup := by
    rw [← hstr, distinctNeighbours_map_str, ← hperm'.nodup_iff]
    exact ⟨nodup_of_isChain hordered', fun h => (List.nodup_iff_pairwise_ne.1 h).isChain⟩
  rw [unique, hsort, ← hpasses]
  dsimp only
  split <;> simp_all

end Check

end SceneScript.Validation
