import Mathlib.Data.List.Basic
import SceneScript.Table

/-!
# Look-ups and writes

What a table answers is decided by its entries: a look-up finds the one entry of its key
(`Entries.get?_eq_some_iff`), a new key goes to the end (`Entries.insert_of_notMem`), and a list
without repeated keys is its own table (`Entries.ofList_of_nodup`).
-/

namespace SceneScript

namespace Entries

variable {α : Type} {entries : List (String × α)} {key : String} {v : α}

theorem insert_of_notMem (h : key ∉ keys entries) (value : α) :
    insert entries key value = entries ++ [(key, value)] := by
  induction entries with
  | nil => rfl
  | cons e rest ih =>
    rw [keys_cons, List.mem_cons, not_or] at h
    rw [insert, if_neg (Ne.symm h.1), ih h.2, List.cons_append]

theorem foldl_insert_of_nodup (rest : List (String × α))
    (h : (keys (entries ++ rest)).Nodup) :
    rest.foldl (fun table e => insert table e.1 e.2) entries = entries ++ rest := by
  induction rest generalizing entries with
  | nil => exact (List.append_nil entries).symm
  | cons e rest ih =>
    have hnot : e.1 ∉ keys entries := by
      intro hm
      rw [keys, List.map_append, List.nodup_append] at h
      exact h.2.2 _ hm _ List.mem_cons_self rfl
    rw [List.foldl_cons, insert_of_notMem hnot, ih (by simpa using h)]
    simp

/-- A list without repeated keys is its own table. -/
theorem ofList_of_nodup (h : (keys entries).Nodup) : ofList entries = entries :=
  foldl_insert_of_nodup entries h

theorem mem_of_get? (h : get? entries key = some v) : (key, v) ∈ entries := by
  induction entries with
  | nil => simp [get?] at h
  | cons e rest ih =>
    rw [get?] at h
    split at h
    · next hk =>
      obtain rfl := Option.some.inj h
      rw [← hk]
      exact List.mem_cons_self
    · exact List.mem_cons_of_mem _ (ih h)

theorem get?_of_mem (hn : (keys entries).Nodup) (h : (key, v) ∈ entries) :
    get? entries key = some v := by
  induction entries with
  | nil => simp at h
  | cons e rest ih =>
    rw [keys_cons, List.nodup_cons] at hn
    rcases List.mem_cons.1 h with rfl | h
    · simp [get?]
    · have hne : e.1 ≠ key := fun he => hn.1 (he ▸ List.mem_map_of_mem h)
      rw [get?, if_neg hne, ih hn.2 h]

theorem get?_eq_some_iff (hn : (keys entries).Nodup) :
    get? entries key = some v ↔ (key, v) ∈ entries :=
  ⟨mem_of_get?, get?_of_mem hn⟩

theorem get?_eq_none_iff : get? entries key = none ↔ key ∉ keys entries := by
  induction entries with
  | nil => simp [get?, keys]
  | cons e rest ih =>
    rw [get?, keys_cons, List.mem_cons, not_or]
    split
    · next hk => simp [hk]
    · next hk => rw [ih]; exact ⟨fun h => ⟨Ne.symm hk, h⟩, fun h => h.2⟩

theorem mem_of_mem_insert {e : String × α} (h : e ∈ insert entries key v) :
    e ∈ entries ∨ e = (key, v) := by
  induction entries with
  | nil => exact .inr (List.mem_singleton.1 h)
  | cons d rest ih =>
    rw [insert] at h
    split at h
    · rcases List.mem_cons.1 h with rfl | h
      · next hk => exact .inr (by rw [← hk])
      · exact .inl (List.mem_cons_of_mem _ h)
    · rcases List.mem_cons.1 h with rfl | h
      · exact .inl List.mem_cons_self
      · exact (ih h).imp_left (List.mem_cons_of_mem _)

theorem mem_of_mem_foldl_insert {e : String × α} {rest : List (String × α)}
    (h : e ∈ rest.foldl (fun table e => insert table e.1 e.2) entries) :
    e ∈ entries ∨ e ∈ rest := by
  induction rest generalizing entries with
  | nil => exact .inl h
  | cons d rest ih =>
    rcases ih h with h | h
    · rcases mem_of_mem_insert h with h | rfl
      · exact .inl h
      · exact .inr List.mem_cons_self
    · exact .inr (List.mem_cons_of_mem _ h)

theorem get?_foldl_insert {rest : List (String × α)} (hn : (keys rest).Nodup)
    (entries : List (String × α)) (key : String) :
    get? (rest.foldl (fun table e => insert table e.1 e.2) entries) key =
      (get? rest key).or (get? entries key) := by
  induction rest generalizing entries with
  | nil => rfl
  | cons e rest ih =>
    rw [keys_cons, List.nodup_cons] at hn
    rw [List.foldl_cons, ih hn.2, get?]
    by_cases hk : e.1 = key
    · rw [if_pos hk, get?_eq_none_iff.2 (hk ▸ hn.1), Option.none_or, ← hk, get?_insert_self]
      rfl
    · rw [if_neg hk, get?_insert_of_ne _ _ (Ne.symm hk)]

section Map

variable {β : Type} (f : α → β)

theorem map_insert (entries : List (String × α)) (key : String) (v : α) :
    (insert entries key v).map (fun e => (e.1, f e.2)) =
      insert (entries.map fun e => (e.1, f e.2)) key (f v) := by
  induction entries with
  | nil => rfl
  | cons e rest ih =>
    rw [List.map_cons, insert, insert]
    split
    · rfl
    · rw [List.map_cons, ih]

/-- Values may be mapped before a list is read or after it. -/
theorem map_ofList (entries : List (String × α)) :
    (ofList entries).map (fun e => (e.1, f e.2)) = ofList (entries.map fun e => (e.1, f e.2)) := by
  have hfold : ∀ rest table : List (String × α),
      (rest.foldl (fun table e => insert table e.1 e.2) table).map (fun e => (e.1, f e.2)) =
        (rest.map fun e => (e.1, f e.2)).foldl (fun table e => insert table e.1 e.2)
          (table.map fun e => (e.1, f e.2)) := by
    intro rest
    induction rest with
    | nil => exact fun _ => rfl
    | cons e rest ih =>
      intro table
      rw [List.foldl_cons, List.map_cons, List.foldl_cons, ih, map_insert]
  exact hfold entries []

end Map

end Entries

namespace Table

variable {α : Type} {t : Table α} {key : String} {v : α}

theorem ext {t u : Table α} (h : t.entries = u.entries) : t = u := by
  cases t
  cases u
  cases h
  rfl

theorem mem_of_get? (h : t.get? key = some v) : (key, v) ∈ t.entries := Entries.mem_of_get? h

theorem get?_eq_some_iff : t.get? key = some v ↔ (key, v) ∈ t.entries :=
  Entries.get?_eq_some_iff t.nodup

theorem get?_eq_none_iff : t.get? key = none ↔ key ∉ t.keys := Entries.get?_eq_none_iff

theorem contains_iff : t.contains key = true ↔ key ∈ t.keys := by
  rw [contains, List.contains_iff_mem]

theorem exists_get?_of_mem (h : key ∈ t.keys) : ∃ v, t.get? key = some v := by
  cases hg : t.get? key with
  | none => exact absurd h (get?_eq_none_iff.1 hg)
  | some v => exact ⟨v, rfl⟩

theorem mem_keys_of_get? (h : t.get? key = some v) : key ∈ t.keys :=
  List.mem_map_of_mem (mem_of_get? h)

theorem insert_of_notMem (h : key ∉ t.keys) (value : α) :
    (t.insert key value).entries = t.entries ++ [(key, value)] :=
  Entries.insert_of_notMem h value

theorem mem_of_mem_insert {e : String × α} (h : e ∈ (t.insert key v).entries) :
    e ∈ t.entries ∨ e = (key, v) := Entries.mem_of_mem_insert h

theorem get?_filter {p : String × α → Bool} (h : ∀ v, p (key, v) = true) :
    (t.filter p).get? key = t.get? key := by
  refine Option.ext fun v => ?_
  rw [get?_eq_some_iff, get?_eq_some_iff, filter, List.mem_filter]
  exact and_iff_left (h v)

theorem get?_filter_eq_none {p : String × α → Bool} (h : ∀ v, p (key, v) = false) :
    (t.filter p).get? key = none := by
  refine Option.eq_none_iff_forall_not_mem.2 fun v hv => ?_
  have hmem := List.mem_filter.1 (get?_eq_some_iff.1 hv)
  simp [h v] at hmem

/-- What is put over a table wins. -/
theorem get?_merge (t other : Table α) (key : String) :
    (t.merge other).get? key = (other.get? key).or (t.get? key) :=
  Entries.get?_foldl_insert other.nodup t.entries key

theorem mem_of_mem_merge {e : String × α} {other : Table α} (h : e ∈ (t.merge other).entries) :
    e ∈ t.entries ∨ e ∈ other.entries := Entries.mem_of_mem_foldl_insert h

theorem mem_of_mem_ofList {e : String × α} {entries : List (String × α)}
    (h : e ∈ (ofList entries).entries) : e ∈ entries :=
  (Entries.mem_of_mem_foldl_insert h).resolve_left List.not_mem_nil

end Table

end SceneScript
