/-!
# Tables in insertion order

A table maps strings to values and remembers the order in which its keys came in: putting a value
under a present key keeps the key's place, a new key goes to the end. No key occurs twice.

* `get?_insert_self`, `get?_insert_of_ne` give the look-ups after a write.
* `keys_insert`, `keys_erase` give the keys after a write and after a removal.
-/

namespace SceneScript

/-! ## Entry lists -/

namespace Entries

variable {α : Type}

/-- The keys of a list of entries. -/
def keys (entries : List (String × α)) : List String := entries.map Prod.fst

/-- The value under a key. -/
def get? (entries : List (String × α)) (key : String) : Option α :=
  match entries with
  | [] => none
  | (k, v) :: rest => if k = key then some v else get? rest key

/-- Entries with a value put under a key: in the key's place, or at the end. -/
def insert (entries : List (String × α)) (key : String) (value : α) : List (String × α) :=
  match entries with
  | [] => [(key, value)]
  | (k, v) :: rest => if k = key then (k, value) :: rest else (k, v) :: insert rest key value

/-- Entries without a key. -/
def erase (entries : List (String × α)) (key : String) : List (String × α) :=
  entries.filter (fun e => e.1 ≠ key)

/-- The entries of a list read from left to right, a later value replacing an earlier one. -/
def ofList (entries : List (String × α)) : List (String × α) :=
  entries.foldl (fun table e => insert table e.1 e.2) []

theorem keys_cons (e : String × α) (entries : List (String × α)) :
    keys (e :: entries) = e.1 :: keys entries := rfl

theorem keys_insert (entries : List (String × α)) (key : String) (value : α) :
    keys (insert entries key value) =
      if key ∈ keys entries then keys entries else keys entries ++ [key] := by
  induction entries with
  | nil => simp [insert, keys]
  | cons e rest ih =>
    by_cases h : e.1 = key
    · simp [insert, keys_cons, h]
    · simp only [insert, h, if_false, keys_cons, ih, List.mem_cons, Ne.symm h, false_or]
      split <;> simp

theorem nodup_insert {entries : List (String × α)} (h : (keys entries).Nodup) (key : String)
    (value : α) : (keys (insert entries key value)).Nodup := by
  rw [keys_insert]
  by_cases hm : key ∈ keys entries
  · rwa [if_pos hm]
  · rw [if_neg hm, List.nodup_append]
    refine ⟨h, by simp, ?_⟩
    intro a ha b hb hab
    rw [List.mem_singleton] at hb
    subst hab hb
    exact hm ha

theorem nodup_filter {entries : List (String × α)} (h : (keys entries).Nodup)
    (p : String × α → Bool) : (keys (entries.filter p)).Nodup :=
  (List.Sublist.map Prod.fst List.filter_sublist).nodup h

theorem nodup_foldl_insert (rest : List (String × α)) {entries : List (String × α)}
    (h : (keys entries).Nodup) :
    (keys (rest.foldl (fun table e => insert table e.1 e.2) entries)).Nodup := by
  induction rest generalizing entries with
  | nil => exact h
  | cons e rest ih => exact ih (nodup_insert h e.1 e.2)

theorem get?_insert_self (entries : List (String × α)) (key : String) (value : α) :
    get? (insert entries key value) key = some value := by
  induction entries with
  | nil => simp [insert, get?]
  | cons e rest ih =>
    by_cases h : e.1 = key
    · simp [insert, get?, h]
    · simp [insert, get?, h, ih]

theorem get?_insert_of_ne (entries : List (String × α)) {key other : String} (value : α)
    (h : other ≠ key) : get? (insert entries key value) other = get? entries other := by
  induction entries with
  | nil => simp [insert, get?, Ne.symm h]
  | cons e rest ih =>
    by_cases hk : e.1 = key
    · simp [insert, get?, hk, Ne.symm h]
    · by_cases ho : e.1 = other
      · simp [insert, get?, ho, h]
      · simp [insert, get?, hk, ho, ih]

end Entries

/-! ## Tables -/

/-- A table from strings, in insertion order. -/
structure Table (α : Type) where
  /-- The entries, in order. -/
  entries : List (String × α)
  /-- No key occurs twice. -/
  nodup : (Entries.keys entries).Nodup
  deriving DecidableEq

namespace Table

variable {α : Type}

/-- The table without entries. -/
def empty : Table α := ⟨[], List.nodup_nil⟩

instance : Inhabited (Table α) := ⟨empty⟩

/-- The keys, in order. -/
def keys (t : Table α) : List String := Entries.keys t.entries

/-- The values, in the order of their keys. -/
def values (t : Table α) : List α := t.entries.map Prod.snd

/-- The value under a key. -/
def get? (t : Table α) (key : String) : Option α := Entries.get? t.entries key

/-- Whether a key is present. -/
def contains (t : Table α) (key : String) : Bool := t.keys.contains key

/-- The table with a value put under a key: in the key's place, or at the end. -/
def insert (t : Table α) (key : String) (value : α) : Table α :=
  ⟨Entries.insert t.entries key value, Entries.nodup_insert t.nodup key value⟩

/-- The table with only the entries that pass a test. -/
def filter (t : Table α) (p : String × α → Bool) : Table α :=
  ⟨t.entries.filter p, Entries.nodup_filter t.nodup p⟩

/-- The table without a key. -/
def erase (t : Table α) (key : String) : Table α := t.filter (fun e => e.1 ≠ key)

/-- The table of a list of entries, a later value replacing an earlier one in its place. -/
def ofList (entries : List (String × α)) : Table α :=
  ⟨Entries.ofList entries, Entries.nodup_foldl_insert entries List.nodup_nil⟩

/-- A table with the entries of another put into it, in order. -/
def merge (t other : Table α) : Table α :=
  ⟨other.entries.foldl (fun table e => Entries.insert table e.1 e.2) t.entries,
    Entries.nodup_foldl_insert other.entries t.nodup⟩

theorem get?_insert_self (t : Table α) (key : String) (value : α) :
    (t.insert key value).get? key = some value :=
  Entries.get?_insert_self t.entries key value

theorem get?_insert_of_ne (t : Table α) {key other : String} (value : α) (h : other ≠ key) :
    (t.insert key value).get? other = t.get? other :=
  Entries.get?_insert_of_ne t.entries value h

theorem keys_insert (t : Table α) (key : String) (value : α) :
    (t.insert key value).keys = if key ∈ t.keys then t.keys else t.keys ++ [key] :=
  Entries.keys_insert t.entries key value

theorem keys_erase (t : Table α) (key : String) :
    (t.erase key).keys = t.keys.filter (fun k => k ≠ key) := by
  simp only [erase, filter, keys, Entries.keys, List.filter_map]
  rfl

end Table

end SceneScript
