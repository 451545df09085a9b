import Mathlib.Data.List.Nodup
import SceneScript.Merge.Reconcile
import SceneScript.Proofs.Table

/-!
# One candidate in a merge

A candidate either takes over an element of the scene or makes one under an id that the scene does
not have (`MergeState.Makes`). An element taken over is not taken over again, and a new one has an
id that is neither in the scene nor made before (`MergeState.Claims`), so no two candidates make
elements under one id.

Main statement: a candidate adds the element that it makes, under an id that no other has, and the
decision about it (`MergeState.exists_step`).
-/

namespace SceneScript

/-! ## Matches -/

namespace Candidate

/-- A candidate takes over an element by its id, or else by its name. -/
theorem of_match? {s : Scene} {c : Candidate} {claimed : List String} {e : Element}
    {reason : Reason} (h : c.match? s claimed = some (e, reason)) :
    reason = .idMatch ∧ c.idMatch? s claimed = some e ∨
      reason = .nameMatch ∧ c.nameMatch? s claimed = some e := by
  rcases Option.or_eq_some_iff.1 h with h | ⟨-, h⟩
  · obtain ⟨e', hid, heq⟩ := Option.map_eq_some_iff.1 h
    obtain ⟨rfl, rfl⟩ := Prod.mk.inj heq
    exact .inl ⟨rfl, hid⟩
  · obtain ⟨e', hname, heq⟩ := Option.map_eq_some_iff.1 h
    obtain ⟨rfl, rfl⟩ := Prod.mk.inj heq
    exact .inr ⟨rfl, hname⟩

/-- The element that a candidate takes over is one of the scene, and not taken over before. -/
theorem mem_of_match? {s : Scene} (hkeys : ∀ entry ∈ s.elements.entries, entry.2.id = entry.1)
    {c : Candidate} {claimed : List String} {e : Element} {reason : Reason}
    (h : c.match? s claimed = some (e, reason)) :
    (e.id, e) ∈ s.elements.entries ∧ e.id ∉ claimed := by
  have hentry : ∀ {key}, s.elements.get? key = some e → (e.id, e) ∈ s.elements.entries := by
    intro key hget
    have hmem := Table.mem_of_get? hget
    obtain rfl : e.id = key := hkeys _ hmem
    exact hmem
  rcases Option.or_eq_some_iff.1 h with h | ⟨-, h⟩
  · obtain ⟨e', hid, heq⟩ := Option.map_eq_some_iff.1 h
    obtain ⟨rfl, -⟩ := Prod.mk.inj heq
    obtain ⟨id, -, hget⟩ := Option.bind_eq_some_iff.1 hid
    split at hget
    · simp at hget
    · next hnot =>
      obtain rfl : e'.id = id := hkeys _ (Table.mem_of_get? hget)
      exact ⟨hentry hget, by simpa using hnot⟩
  · obtain ⟨e', hname, heq⟩ := Option.map_eq_some_iff.1 h
    obtain ⟨rfl, -⟩ := Prod.mk.inj heq
    obtain ⟨name, -, hfind⟩ := Option.bind_eq_some_iff.1 hname
    obtain ⟨key, -, hget⟩ := List.mem_filterMap.1 (List.mem_of_find?_eq_some hfind)
    have htest := List.find?_some hfind
    simp only [Bool.and_eq_true, Bool.not_eq_true'] at htest
    exact ⟨hentry hget, by simpa using htest.2⟩

end Candidate

/-! ## Added elements -/

namespace MergeState

/-- An element made under an id of the scene has been taken over. -/
def Claims (s : Scene) (m : MergeState) : Prop :=
  ∀ key ∈ m.elements.keys, key ∈ s.elements.keys → key ∈ m.claimed

theorem claims_start (s : Scene) : start.Claims s := by
  simp [Claims, start, Table.empty, Table.keys, Entries.keys]

section Add

variable {m : MergeState} {e : Element} (hnew : e.id ∉ m.elements.keys) (decision : Decision)

include hnew

theorem keys_add : (m.add e decision).elements.keys = m.elements.keys ++ [e.id] :=
  (Table.keys_insert m.elements e.id e).trans (if_neg hnew)

theorem eq_or_mem_of_mem_add {key : String} (h : key ∈ (m.add e decision).elements.keys) :
    key ∈ m.elements.keys ∨ key = e.id := by
  rw [keys_add hnew] at h
  simpa using h

end Add

/-! ## One candidate -/

/-- The element that a candidate makes of a scene, and the decision about it: an element of the
scene is taken over, or one is made under an id that the scene does not have. -/
inductive Makes (s : Scene) (c : Candidate) (index : ℕ) : Element → Decision → Prop
  | update {e : Element} {reason : Reason} (he : s.elements.get? e.id = some e)
      (hreason : reason = .idMatch ∨ reason = .nameMatch) :
      Makes s c index (c.update e) ⟨e.id, reason, some index, some c.line⟩
  | create {id : String} {reason : Reason} (hid : id ∉ s.elements.keys)
      (hreason : reason = .metadataId ∨ reason = .freshId) :
      Makes s c index (c.create id) ⟨id, reason, some index, some c.line⟩

/-- The id of a new element is the one on its marker, or fresh. -/
theorem newId_reason {σ : Type} (allocate : Allocator σ) (m : MergeState) (s : Scene)
    (c : Candidate) (state : σ) : (m.newId allocate s c state).1.2 = .metadataId ∨
      (m.newId allocate s c state).1.2 = .freshId := by
  unfold newId
  split
  · exact .inl rfl
  · exact .inr rfl

variable {σ : Type} {allocate : Allocator σ} (hfresh : allocate.Fresh)

include hfresh

/-- The id of a new element is not in use. -/
theorem newId_notMem (m : MergeState) (s : Scene) (c : Candidate) (state : σ) :
    (m.newId allocate s c state).1.1 ∉ m.inUse s := by
  unfold newId
  split
  · next id hid =>
    have := (Option.filter_eq_some_iff.1 hid).2
    simpa using this
  · exact hfresh (m.inUse s) state

/-- A candidate adds one element, under an id that no other has, and one decision. -/
theorem exists_step {s : Scene} (hkeys : ∀ entry ∈ s.elements.entries, entry.2.id = entry.1)
    {m : MergeState} (hclaims : m.Claims s) (c : Candidate) (index : ℕ) (state : σ) :
    ∃ claimed e d, Makes s c index e d ∧ e.id ∉ m.elements.keys ∧
      (m.step allocate s index c state).1 = ({ m with claimed := claimed } : MergeState).add e d ∧
      (m.step allocate s index c state).1.Claims s := by
  unfold MergeState.step
  split
  · next e reason hmatch =>
    obtain ⟨hentry, hnot⟩ := Candidate.mem_of_match? hkeys hmatch
    have hget : s.elements.get? e.id = some e := Table.get?_eq_some_iff.2 hentry
    have hreason := (Candidate.of_match? hmatch).imp And.left And.left
    -- an element made before under this id would have been taken over
    have hnew : (c.update e).id ∉ m.elements.keys := fun hmem =>
      hnot (hclaims _ hmem (Table.mem_keys_of_get? hget))
    refine ⟨e.id :: m.claimed, c.update e, _, .update hget hreason, hnew, rfl,
      fun key hmem hs => ?_⟩
    rcases eq_or_mem_of_mem_add (m := { m with claimed := e.id :: m.claimed }) hnew _ hmem with
      hmem | rfl
    · exact List.mem_cons_of_mem _ (hclaims key hmem hs)
    · exact List.mem_cons_self
  · have hid := newId_notMem hfresh m s c state
    rw [inUse, List.mem_append, not_or] at hid
    refine ⟨m.claimed, c.create (m.newId allocate s c state).1.1, _,
      .create hid.1 (newId_reason allocate m s c state), hid.2, rfl, fun key hmem hs => ?_⟩
    rcases eq_or_mem_of_mem_add (e := c.create (m.newId allocate s c state).1.1) hid.2 _ hmem with
      hmem | rfl
    · exact hclaims key hmem hs
    · exact absurd hs hid.1

end MergeState

end SceneScript
