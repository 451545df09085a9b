import SceneScript.Text.Character

/-!
# Fresh ids

An allocator hands out an id that is not among those in use, and goes on from a new state. The
allocator of a session cuts its ids from a source of long hexadecimal texts: some given ones first,
then a number that counts up, written eight times. It draws until one is free.

Main statement: the id handed out is never in use (`IdSource.fresh_allocate`).
-/

namespace SceneScript

/-! ## Allocators -/

/-- What hands out ids: from the ids in use and a state, an id and the next state. -/
abbrev Allocator (σ : Type) := List String → σ → String × σ

/-- An allocator that never hands out an id in use. -/
def Allocator.Fresh {σ : Type} (a : Allocator σ) : Prop := ∀ used state, (a used state).1 ∉ used

/-! ## Sources -/

/-- A source of long texts from which ids are cut. -/
structure IdSource where
  /-- The texts to be drawn first. -/
  given : List String
  /-- The number to be written once those are used up. -/
  next : Nat
  deriving DecidableEq, Repr

namespace IdSource

/-- A source with some texts given, counting from one. -/
def ofGiven (given : List String) : IdSource := ⟨given, 1⟩

/-- A number in hexadecimal, eight times. -/
def repeated (n : Nat) : List Char := (List.replicate 8 (Text.hexPad 4 n)).flatten

/-- The next text of a source, and the source after it. -/
def draw (source : IdSource) : List Char × IdSource :=
  match source.given with
  | text :: rest => (text.toList, { source with given := rest })
  | [] => (repeated source.next, { source with next := source.next + 1 })

/-- The front of a text, of a length; a negative length counts from the end. -/
def cut (length : Int) (s : List Char) : List Char :=
  if 0 ≤ length then s.take length.toNat else s.take (s.length - length.natAbs)

/-- A text longer than any of some others. -/
def longer (used : List String) : String :=
  String.ofList (List.replicate ((used.map String.length).foldr Nat.max 0 + 1) '0')

/-- The first free id of a source, looked for in a number of draws. -/
def search (length : Int) (used : List String) : Nat → IdSource → String × IdSource
  | 0, source => (longer used, source)
  | draws + 1, source =>
    let (text, source) := source.draw
    let id := String.ofList (cut length text)
    if used.contains id then search length used draws source else (id, source)

/-- The number of draws after which a search ends: all given texts, all numbers of four digits, and
one more for every id in use. -/
def draws (source : IdSource) (used : List String) : Nat :=
  source.given.length + 65536 + used.length

/-- The allocator that cuts ids of a length from a source. -/
def allocate (length : Int) : Allocator IdSource :=
  fun used source => search length used (source.draws used) source

/-! ## Freshness -/

theorem length_le_foldr_max {used : List String} {id : String} (h : id ∈ used) :
    id.length ≤ (used.map String.length).foldr Nat.max 0 := by
  induction used with
  | nil => simp at h
  | cons u used ih =>
    simp only [List.map_cons, List.foldr_cons]
    rcases List.mem_cons.1 h with rfl | h
    · exact Nat.le_max_left _ _
    · exact Nat.le_trans (ih h) (Nat.le_max_right _ _)

theorem longer_not_mem (used : List String) : longer used ∉ used := by
  intro h
  have := length_le_foldr_max h
  simp only [longer, String.length_ofList, List.length_replicate] at this
  omega

theorem search_not_mem (length : Int) (used : List String) (draws : Nat) (source : IdSource) :
    (search length used draws source).1 ∉ used := by
  induction draws generalizing source with
  | zero => exact longer_not_mem used
  | succ draws ih =>
    simp only [search]
    split
    · exact ih _
    · next h => simpa using h

/-- The id that is handed out is not in use. -/
theorem fresh_allocate (length : Int) : (allocate length).Fresh :=
  fun used source => search_not_mem length used (source.draws used) source

end IdSource

end SceneScript
