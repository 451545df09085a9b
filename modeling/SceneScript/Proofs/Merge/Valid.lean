import SceneScript.Proofs.Identity.Allocator
import SceneScript.Proofs.Merge.Account
import SceneScript.Proofs.Scene.Valid
import SceneScript.Proofs.Script.Size

/-!
# When reconciling keeps a scene valid

Ids, types and props of what a script makes are always those of a valid element: an id is one that
the scene has, one on a marker, which holds no blank, or one handed out. Only sizes and names come
from the script as they are.

Main statement: the scene that the candidates of a script make of a valid scene is valid exactly
when their sizes are not negative and their names not blank (`Scene.Valid.reconcile_iff`).
-/

namespace SceneScript

open Validation

/-! ## Ids -/

namespace MergeState

variable {σ : Type} {allocate : Allocator σ} {P : String → Prop} {Q : σ → Prop}
  (hallocate : allocate.HandsOut P Q) {s : Scene}
  (hkeys : ∀ entry ∈ s.elements.entries, entry.2.id = entry.1) (hs : ∀ key ∈ s.elements.keys, P key)

include hallocate

/-- The id of a new element is the one on the marker or handed out. -/
theorem newId_handsOut {c : Candidate} (hc : ∀ id, c.markedId? = some id → P id) (m : MergeState)
    {state : σ} (hstate : Q state) :
    P (m.newId allocate s c state).1.1 ∧ Q (m.newId allocate s c state).2 := by
  unfold newId
  split
  · next id hid => exact ⟨hc id (Option.filter_eq_some_iff.1 hid).1, hstate⟩
  · exact hallocate _ _ hstate

include hkeys hs

/-- Ids keep a property that the scene, the markers and what is handed out have. -/
theorem step_handsOut {c : Candidate} (hc : ∀ id, c.markedId? = some id → P id) {m : MergeState}
    (hm : ∀ key ∈ m.elements.keys, P key) (index : ℕ) {state : σ} (hstate : Q state) :
    (∀ key ∈ (m.step allocate s index c state).1.elements.keys, P key) ∧
      Q (m.step allocate s index c state).2 := by
  have hinsert : ∀ (e : Element), P e.id → ∀ key ∈ (m.elements.insert e.id e).keys, P key := by
    intro e he key hkey
    rw [Table.keys_insert] at hkey
    split at hkey
    · exact hm key hkey
    · rcases List.mem_append.1 hkey with hkey | hkey
      · exact hm key hkey
      · exact List.mem_singleton.1 hkey ▸ he
  unfold MergeState.step
  split
  · next e reason hmatch =>
    obtain ⟨hentry, -⟩ := Candidate.mem_of_match? hkeys hmatch
    exact ⟨hinsert (c.update e) (hs _ (List.mem_map_of_mem hentry)), hstate⟩
  · obtain ⟨hid, hrest⟩ := newId_handsOut hallocate hc m hstate (s := s)
    exact ⟨hinsert (c.create _) hid, hrest⟩

theorem steps_handsOut {cs : List Candidate} (hcs : ∀ c ∈ cs, ∀ id, c.markedId? = some id → P id)
    {m : MergeState} (hm : ∀ key ∈ m.elements.keys, P key) (index : ℕ) {state : σ}
    (hstate : Q state) :
    (∀ key ∈ (m.steps allocate s index cs state).1.elements.keys, P key) ∧
      Q (m.steps allocate s index cs state).2 := by
  induction cs generalizing m index state with
  | nil => exact ⟨hm, hstate⟩
  | cons c cs ih =>
    obtain ⟨hm', hstate'⟩ :=
      step_handsOut hallocate hkeys hs (hcs c List.mem_cons_self) hm index hstate
    exact ih (fun c' hc' => hcs c' (List.mem_cons_of_mem _ hc')) hm' (index + 1) hstate'

end MergeState

/-- The ids of a reconciled scene have a property that those of the scene before, those on markers,
and what is handed out have. -/
theorem Scene.reconcile_handsOut {σ : Type} {allocate : Allocator σ} {P : String → Prop}
    {Q : σ → Prop} (hallocate : allocate.HandsOut P Q) {s : Scene} (h : s.Consistent)
    (hs : ∀ key ∈ s.elements.keys, P key) {cs : List Candidate}
    (hcs : ∀ c ∈ cs, ∀ id, c.markedId? = some id → P id) {state : σ} (hstate : Q state) :
    (∀ key ∈ (s.reconcile allocate cs state).1.scene.elements.keys, P key) ∧
      Q (s.reconcile allocate cs state).2 := by
  cases cs with
  | nil => exact ⟨hs, hstate⟩
  | cons c cs =>
    obtain ⟨hm, hstate'⟩ := MergeState.steps_handsOut hallocate h.keys hs hcs
      (m := MergeState.start) (by simp [MergeState.start, Table.empty, Table.keys, Entries.keys])
      0 hstate
    refine ⟨fun key hkey => ?_, hstate'⟩
    rcases MergeState.mem_keys_foldl_keep.1 hkey with hkey | hkey
    · exact hm key hkey
    · rw [map_id_of_keys h.keys h.order] at hkey
      exact hs key (h.order.mem_iff.1 hkey)

/-! ## One candidate -/

theorem Candidate.Marked.solid {c : Candidate} (h : c.Marked) {id : String}
    (hid : c.markedId? = some id) : Solid id := by
  have hmarker : c.id? = some id := (Option.filter_eq_some_iff.1 hid).1
  exact ⟨id.toList, h.id_ne id hmarker, h.id_plain id hmarker, .inl rfl⟩

/-- The sizes of a candidate are not negative, and its name is not blank. -/
structure Candidate.Fair (c : Candidate) : Prop where
  w : (0 : Num).le c.w = true
  h : (0 : Num).le c.h = true
  name : ∀ name, c.name? = some name → Visible name

namespace Candidate

variable {c : Candidate}

theorem nonemptyOr_of_marked (h : c.Marked) {name : String} (hname : c.name? = some name)
    (other : String) : nonemptyOr c.name? other = name := by
  rw [hname, nonemptyOr, if_neg]
  rw [String.isEmpty_iff]
  rintro rfl
  exact h.name_ne _ hname rfl

theorem visible_nonemptyOr_iff (h : c.Marked) {other : String} (hother : Visible other) :
    Visible (nonemptyOr c.name? other) ↔ ∀ name, c.name? = some name → Visible name := by
  cases hname : c.name? with
  | none => simpa [nonemptyOr] using hother
  | some name =>
    rw [← hname, nonemptyOr_of_marked h hname, hname]
    simp

theorem lt_zero_iff {v : Num} (h : v.isNaN = false) : v.lt 0 = false ↔ (0 : Num).le v = true :=
  ⟨Num.le_of_lt_eq_false rfl h, Num.lt_eq_false_of_le⟩

/-- An element that a candidate of a script makes is valid exactly when the candidate is fair. -/
theorem valid_create_iff (hmarked : c.Marked) (hsound : c.Sound) (hsized : c.Sized) {id : String}
    (hid : Solid id) : (c.create id).Valid ↔ c.Fair := by
  have hname := visible_nonemptyOr_iff hmarked (visible_defaultName c.type id)
  constructor
  · exact fun h => ⟨(lt_zero_iff hsized.w).1 h.w, (lt_zero_iff hsized.h).1 h.h, hname.1 h.name⟩
  · intro h
    refine ⟨⟨hid, hsound.type, hname.2 h.name, (lt_zero_iff hsized.w).2 h.w,
      (lt_zero_iff hsized.h).2 h.h, fun entry hentry => ?_⟩, fun entry hentry => ?_⟩
    · obtain ⟨spec, -, hholds⟩ := hsound.props entry hentry
      exact hholds.storable
    · obtain ⟨spec, hspec, -⟩ := hsound.props entry hentry
      exact ⟨spec, hspec⟩

/-- The same for an element that it makes of a valid one. -/
theorem valid_update_iff (hmarked : c.Marked) (hsound : c.Sound) (hsized : c.Sized) {e : Element}
    (he : e.Valid) : (c.update e).Valid ↔ c.Fair := by
  have hname := visible_nonemptyOr_iff hmarked he.name
  constructor
  · exact fun h => ⟨(lt_zero_iff hsized.w).1 h.w, (lt_zero_iff hsized.h).1 h.h, hname.1 h.name⟩
  · intro h
    refine ⟨⟨he.id, hsound.type, hname.2 h.name, (lt_zero_iff hsized.w).2 h.w,
      (lt_zero_iff hsized.h).2 h.h, fun entry hentry => ?_⟩, fun entry hentry => ?_⟩
    · rcases Table.mem_of_mem_merge hentry with hentry | hentry
      · exact he.storable entry (List.mem_of_mem_filter hentry)
      · obtain ⟨spec, -, hholds⟩ := hsound.props entry hentry
        exact hholds.storable
    · rcases Table.mem_of_mem_merge hentry with hentry | hentry
      · exact Option.isSome_iff_exists.1 (List.mem_filter.1 hentry).2
      · obtain ⟨spec, hspec, -⟩ := hsound.props entry hentry
        exact ⟨spec, hspec⟩

end Candidate

/-- What a candidate of a script makes of a valid scene is valid exactly when the candidate is
fair. -/
theorem MergeState.Makes.valid_iff {s : Scene} (h : s.Valid) {c : Candidate} {index : ℕ}
    {e : Element} {d : Decision} (hmakes : Makes s c index e d) {text : List Char}
    {cs : List Candidate} (hcs : candidatesOf text = .ok cs) (hc : c ∈ cs) (hid : Solid e.id) :
    e.Valid ↔ c.Fair := by
  have hmarked := marked_of_candidatesOf hcs c hc
  have hsound := sound_of_candidatesOf hcs c hc
  have hsized := sized_of_candidatesOf hcs c hc
  cases hmakes with
  | update he hreason =>
    exact Candidate.valid_update_iff hmarked hsound hsized (h.elements _ (Table.mem_of_get? he))
  | create hnew hreason => exact Candidate.valid_create_iff hmarked hsound hsized hid

/-! ## All candidates -/

/-- What a merge makes is consistent. -/
theorem Scene.consistent_reconcile {s : Scene} (h : s.Consistent) {σ : Type}
    {allocate : Allocator σ} (hfresh : allocate.Fresh) (cs : List Candidate) (state : σ) :
    (s.reconcile allocate cs state).1.scene.Consistent := by
  rcases eq_or_ne cs [] with rfl | hne
  · exact h
  obtain ⟨made, others, -, -, hentries, horder, hselection, -⟩ :=
    exists_reconcile_eq h.keys h.order hfresh hne state
  have hr : (s.reconcile allocate cs state).1.scene.ConsistsOf (made.map Prod.fst ++ others) :=
    ⟨hentries, horder⟩
  exact ⟨hr.keys, .of_eq hr.keys_eq.symm, by simp [hselection], by simp [hselection]⟩

/-- The candidates of a script make a valid scene of a valid one exactly when each of them is
fair. -/
theorem Scene.Valid.reconcile_iff {s : Scene} (h : s.Valid) {σ : Type} {allocate : Allocator σ}
    {Q : σ → Prop} (hfresh : allocate.Fresh) (hallocate : allocate.HandsOut Solid Q)
    {text : List Char} {cs : List Candidate} (hcs : candidatesOf text = .ok cs) {state : σ}
    (hstate : Q state) :
    (s.reconcile allocate cs state).1.scene.Valid ↔ ∀ c ∈ cs, c.Fair := by
  rcases eq_or_ne cs [] with rfl | hne
  · exact iff_of_true h (by simp)
  have hmarked := marked_of_candidatesOf hcs
  have hconsistent := Scene.consistent_reconcile h.toConsistent hfresh cs state
  obtain ⟨hids, -⟩ := reconcile_handsOut hallocate h.toConsistent h.solid_of_mem_keys
    (fun c hc id hid => (hmarked c hc).solid hid) hstate
  obtain ⟨made, others, hmakes, hothers, hentries, -, -, -⟩ :=
    exists_reconcile_eq h.keys h.order hfresh hne state
  generalize (s.reconcile allocate cs state).1.scene = s' at hids hentries hconsistent ⊢
  have hmem : ∀ q ∈ made, (q.1.id, q.1) ∈ s'.elements.entries := by
    intro q hq
    rw [hentries]
    exact List.mem_map_of_mem (f := fun e => (e.id, e))
      (List.mem_append_left _ (List.mem_map_of_mem (f := Prod.fst) hq))
  have hsolid : ∀ q ∈ made, Solid q.1.id := fun q hq => hids _ (List.mem_map_of_mem (hmem q hq))
  constructor
  · intro hvalid c hc
    obtain ⟨i, hi⟩ := List.mem_iff_getElem?.1 hc
    have hp : (c, i) ∈ cs.zipIdx := List.mem_zipIdx_iff_getElem?.2 hi
    obtain ⟨q, hq, hmakes⟩ := exists_of_mem_left hmakes hp
    exact (hmakes.valid_iff h hcs hc (hsolid q hq)).1 (hvalid.elements _ (hmem q hq))
  · refine fun hfair => ⟨hconsistent, fun entry hentry => ?_⟩
    rw [hentries] at hentry
    obtain ⟨e, he, rfl⟩ := List.mem_map.1 hentry
    rcases List.mem_append.1 he with he | he
    · obtain ⟨q, hq, rfl⟩ := List.mem_map.1 he
      obtain ⟨⟨c, i⟩, hp, hmakes⟩ := exists_of_mem_right hmakes hq
      have hc : c ∈ cs := List.mem_of_getElem? (List.mem_zipIdx_iff_getElem?.1 hp)
      exact (hmakes.valid_iff h hcs hc (hsolid q hq)).2 (hfair c hc)
    · rw [hothers] at he
      obtain ⟨key, -, hget⟩ := List.mem_filterMap.1 (List.mem_of_mem_filter he)
      exact h.elements (key, e) (Table.mem_of_get? hget)

theorem Scene.valid_panelAndTitle : panelAndTitle.Valid := by
  have hshape : ∀ entry ∈ panelAndTitle.elements.entries,
      elementCheck entry.2.toJson = [] := by decide +kernel
  have hknown : ∀ entry ∈ panelAndTitle.elements.entries, ∀ prop ∈ entry.2.props.entries,
      (propSpec? entry.2.type prop.1).isSome = true := by decide +kernel
  exact ⟨⟨by decide +kernel, by decide +kernel, by decide, by decide⟩, fun entry hentry =>
    ⟨Element.elementCheck_toJson.1 (hshape entry hentry), fun prop hprop =>
      Option.isSome_iff_exists.1 (hknown entry hentry prop hprop)⟩⟩

end SceneScript
