import SceneScript.Proofs.Merge.Step
import SceneScript.Proofs.Scene.Sound
import SceneScript.Proofs.Script.Found

/-!
# Reconciling keeps a scene sound

A merge makes its elements one by one, each under an id that it has not used. Props of the old type
that stay are known to the new one, and a key is of a text in all types or in none, so they are of
the right kind (`soundProps_mergeProps`).

Main statements:

* `Scene.Sound.reconcile`: the scene that sound candidates make of a sound scene is sound.
* `Scene.Sound.mem_keys_reconcile`: no id of the scene before is lost.
-/

namespace SceneScript

/-! ## One candidate -/

/-- Props of another type that stay, and those of a candidate put over them, belong to the type. -/
theorem soundProps_mergeProps {type type' : String} {existing incoming : Table Json}
    (hexisting : SoundProps type existing) (hincoming : SoundProps type' incoming) :
    SoundProps type' (mergeProps existing incoming type') := by
  intro entry hentry
  rcases Table.mem_of_mem_merge hentry with hentry | hentry
  · obtain ⟨hmem, hknown⟩ := List.mem_filter.1 hentry
    obtain ⟨spec', hspec'⟩ := Option.isSome_iff_exists.1 hknown
    obtain ⟨spec, hspec, hholds⟩ := hexisting entry hmem
    exact ⟨spec', hspec', hholds.of_text_iff (kind_eq_text_iff_of_propSpec? hspec hspec')⟩
  · exact hincoming entry hentry

namespace Candidate

theorem Sound.update {c : Candidate} (hc : c.Sound) {e : Element} (he : e.Sound) :
    (c.update e).Sound :=
  ⟨hc.type, soundProps_mergeProps he.props hc.props⟩

theorem Sound.create {c : Candidate} (hc : c.Sound) (id : String) : (c.create id).Sound :=
  ⟨hc.type, hc.props⟩

end Candidate

/-! ## All candidates -/

namespace MergeState

/-- The elements made are sound, stand under their ids, and are in the order in which they were
made. -/
structure Sound (m : MergeState) : Prop where
  keys : ∀ entry ∈ m.elements.entries, entry.2.id = entry.1
  order : m.order = m.elements.keys
  elements : ∀ entry ∈ m.elements.entries, entry.2.Sound

theorem sound_start : start.Sound :=
  ⟨by simp [start, Table.empty], rfl, by simp [start, Table.empty]⟩

theorem Sound.add {m : MergeState} (h : m.Sound) {e : Element} (hnew : e.id ∉ m.elements.keys)
    (decision : Decision) (he : e.Sound) : (m.add e decision).Sound := by
  refine ⟨fun entry hentry => ?_, ?_, fun entry hentry => ?_⟩
  · rcases Table.mem_of_mem_insert hentry with hentry | rfl
    · exact h.keys entry hentry
    · rfl
  · rw [keys_add hnew, ← h.order]
    rfl
  · rcases Table.mem_of_mem_insert hentry with hentry | rfl
    · exact h.elements entry hentry
    · exact he

/-- What a sound candidate makes of a sound scene is sound. -/
theorem Makes.sound {s : Scene} (hs : s.Sound) {c : Candidate} (hc : c.Sound) {index : ℕ}
    {e : Element} {d : Decision} (h : Makes s c index e d) : e.Sound := by
  cases h with
  | update he hreason => exact hc.update (hs.elements _ (Table.mem_of_get? he))
  | create hid hreason => exact hc.create _

variable {σ : Type} {allocate : Allocator σ} (hfresh : allocate.Fresh)

section Steps

variable {s : Scene} (h : s.Sound) {m : MergeState} (hm : m.Sound) (hclaims : m.Claims s)

include hfresh h hm hclaims

/-- A candidate keeps a merge sound. -/
theorem Sound.step {c : Candidate} (hc : c.Sound) (index : ℕ) (state : σ) :
    (m.step allocate s index c state).1.Sound ∧ (m.step allocate s index c state).1.Claims s := by
  obtain ⟨claimed, e, d, hmakes, hnew, hstep, hclaims'⟩ :=
    exists_step hfresh h.keys hclaims c index state
  have hm' : ({ m with claimed := claimed } : MergeState).Sound := ⟨hm.keys, hm.order, hm.elements⟩
  exact ⟨hstep ▸ hm'.add hnew d (hmakes.sound h hc), hclaims'⟩

/-- So do any candidates. -/
theorem Sound.steps {cs : List Candidate} (hcs : ∀ c ∈ cs, c.Sound) (index : ℕ) (state : σ) :
    (m.steps allocate s index cs state).1.Sound := by
  induction cs generalizing m index state with
  | nil => exact hm
  | cons c cs ih =>
    obtain ⟨hstep, hclaims'⟩ :=
      Sound.step hfresh h hm hclaims (hcs c List.mem_cons_self) index state
    exact ih hstep hclaims' (fun c' hc' => hcs c' (List.mem_cons_of_mem _ hc')) _ _

end Steps

/-! ## Kept elements -/

variable {m : MergeState}

theorem mem_keys_keep {key : String} (e : Element) :
    key ∈ (m.keep e).elements.keys ↔ key ∈ m.elements.keys ∨ key = e.id := by
  unfold keep
  split
  · next hcontains =>
    have hid := Table.contains_iff.1 hcontains
    exact ⟨.inl, fun h => h.elim id fun heq => heq ▸ hid⟩
  · next hnot =>
    rw [keys_add fun hmem => hnot (Table.contains_iff.2 hmem)]
    simp

theorem Sound.keep (hm : m.Sound) {e : Element} (he : e.Sound) : (m.keep e).Sound := by
  unfold MergeState.keep
  split
  · exact hm
  · next hnot => exact hm.add (fun hmem => hnot (Table.contains_iff.2 hmem)) _ he

theorem Sound.foldl_keep (hm : m.Sound) {es : List Element} (hes : ∀ e ∈ es, e.Sound) :
    (es.foldl MergeState.keep m).Sound := by
  induction es generalizing m with
  | nil => exact hm
  | cons e es ih =>
    exact ih (hm.keep (hes e List.mem_cons_self)) fun e' he' => hes e' (List.mem_cons_of_mem _ he')

/-- Keeping elements adds their ids. -/
theorem mem_keys_foldl_keep {key : String} {es : List Element} :
    key ∈ (es.foldl MergeState.keep m).elements.keys ↔
      key ∈ m.elements.keys ∨ key ∈ es.map Element.id := by
  induction es generalizing m with
  | nil => simp
  | cons e es ih => rw [List.foldl_cons, ih, mem_keys_keep, List.map_cons, List.mem_cons, or_assoc]

end MergeState

/-! ## The scene -/

namespace Scene.Sound

variable {s : Scene} (h : s.Sound)

include h

theorem sound_of_mem {e : Element} (he : e ∈ s.orderedElements) : e.Sound := by
  obtain ⟨key, -, hget⟩ := List.mem_filterMap.1 he
  exact h.elements _ (Table.mem_of_get? hget)

/-- Every id is that of an element in the order. -/
theorem exists_mem_orderedElements {key : String} (hkey : key ∈ s.elements.keys) :
    ∃ e ∈ s.orderedElements, e.id = key := by
  obtain ⟨e, he⟩ := Table.exists_get?_of_mem hkey
  exact ⟨e, List.mem_filterMap.2 ⟨key, h.order.mem_iff.2 hkey, he⟩, h.id_of_get? he⟩

/-- The scene that sound candidates make of a sound scene is sound. -/
theorem reconcile {σ : Type} {allocate : Allocator σ} (hfresh : allocate.Fresh)
    {cs : List Candidate} (hcs : ∀ c ∈ cs, c.Sound) (state : σ) :
    (s.reconcile allocate cs state).1.scene.Sound := by
  cases cs with
  | nil => exact h
  | cons c cs =>
    have hsteps := MergeState.Sound.steps hfresh h MergeState.sound_start
      (MergeState.claims_start s) hcs 0 state
    have hm := hsteps.foldl_keep fun e => h.sound_of_mem
    exact ⟨⟨hm.keys, .of_eq hm.order, List.nodup_nil, fun _ => False.elim ∘ List.not_mem_nil⟩,
      hm.elements⟩

/-- No id of the scene before is lost. -/
theorem mem_keys_reconcile {σ : Type} (allocate : Allocator σ) (cs : List Candidate) (state : σ)
    {key : String} (hkey : key ∈ s.elements.keys) :
    key ∈ (s.reconcile allocate cs state).1.scene.elements.keys := by
  cases cs with
  | nil => exact hkey
  | cons c cs =>
    obtain ⟨e, he, rfl⟩ := h.exists_mem_orderedElements hkey
    exact MergeState.mem_keys_foldl_keep.2 (.inr (List.mem_map_of_mem he))

end Scene.Sound

end SceneScript
