import SceneScript.Proofs.Element.Stored
import SceneScript.Proofs.Merge.Valid
import SceneScript.Proofs.Session.Sound

/-!
# Orderly sessions

Mutations keep the document of a scene valid, whatever numbers, texts and values they are given, and
also when they fail. After a mutation an element is one that was there, one that was edited, or a
new one (`Session.Stems`), so what edits keep and new elements have, all elements have.

Main statement: after any mutations the document passes, every prop holds a value of its kind,
channels from zero to one, and an element that is given a size has no less than the least one
(`Session.orderly_run`).
-/

namespace SceneScript

open Validation

/-- A consistent scene of orderly elements. -/
structure Scene.Orderly (K : PropKind → Json → Prop) (s : Scene) : Prop extends s.Consistent where
  elements : ∀ entry ∈ s.elements.entries, entry.2.Orderly K

namespace Scene.Orderly

variable {K : PropKind → Json → Prop} {s : Scene} (h : s.Orderly K)

include h

theorem valid : s.Valid :=
  ⟨h.toConsistent, fun entry hentry => (h.elements entry hentry).toValid⟩

theorem sound (hK : PropKind.IsSort K) : s.Sound := by
  refine ⟨h.toConsistent, fun entry hentry =>
    ⟨(h.elements entry hentry).type, fun prop hprop => ?_⟩⟩
  obtain ⟨spec, hspec, hkind⟩ := (h.elements entry hentry).props prop hprop
  exact ⟨spec, hspec, hK.holds _ _ hkind⟩

end Scene.Orderly

/-! ## Where elements come from -/

/-- The key under which a mutation edits an element, and the edit, if it is one. -/
def Mutation.edit? (least : Num) : Mutation → Option (String × (Element → Element.Edited))
  | .setPosition id x y => some (id, fun e => e.setPosition x y)
  | .moveBy id dx dy => some (id, fun e => e.moveBy dx dy)
  | .resize id w h => some (id, fun e => e.resize least w h)
  | .setProperty id key value => some (id, fun e => e.setProperty key value)
  | .rename id name => some (id, fun e => e.rename name)
  | .createElement _ | .deleteElement _ | .deleteSelected | .setSelection _ => none

namespace Session

variable {σ : Type} {s : Session σ}

theorem mutate_of_edit? {m : Mutation} {key : String} {f : Element → Element.Edited}
    (h : m.edit? s.config.minExtent = some (key, f)) : s.mutate m = s.edit key f := by
  cases m <;> simp only [Mutation.edit?, Option.some.injEq, Prod.mk.injEq, reduceCtorEq] at h <;>
    obtain ⟨rfl, rfl⟩ := h <;> rw [Session.mutate]

/-- That an entry of a scene after a mutation was there before, is that of an element that the
mutation edits, or that of an element that it creates. -/
inductive Stems (s : Session σ) (m : Mutation) : String × Element → Prop
  | kept {entry : String × Element} (h : entry ∈ s.scene.elements.entries) : Stems s m entry
  | edited {key : String} {f : Element → Element.Edited} {e : Element}
      (hedit : m.edit? s.config.minExtent = some (key, f))
      (he : (key, e) ∈ s.scene.elements.entries) : Stems s m (key, (f e).2)
  | created {type : String} {e : Element}
      (he : Element.create? type (s.allocator s.scene.elements.keys s.ids).1 s.config.spawnX
        s.config.spawnY = some e) : Stems s m (e.id, e)

theorem mem_of_mem_edit {key : String} {f : Element → Element.Edited} {entry : String × Element}
    (h : entry ∈ (s.edit key f).2.scene.elements.entries) :
    entry ∈ s.scene.elements.entries ∨
      ∃ e, (key, e) ∈ s.scene.elements.entries ∧ entry = (key, (f e).2) := by
  unfold Session.edit at h
  cases hget : s.scene.elements.get? key with
  | none =>
    rw [hget] at h
    exact .inl h
  | some e =>
    rw [hget] at h
    have hmem : entry ∈ (s.scene.elements.insert key (f e).2).entries := by
      dsimp only at h
      cases hanswer : (f e).1 with
      | ok b => rwa [hanswer] at h
      | error err => rwa [hanswer] at h
    exact (Table.mem_of_mem_insert hmem).imp_right fun heq => ⟨e, Table.mem_of_get? hget, heq⟩

/-- After a mutation there are no other elements. -/
theorem stems_of_mem_mutate {m : Mutation} {entry : String × Element}
    (h : entry ∈ (s.mutate m).2.scene.elements.entries) : s.Stems m entry := by
  have hedit : ∀ {key f}, m.edit? s.config.minExtent = some (key, f) → s.Stems m entry := by
    intro key f hm
    rw [mutate_of_edit? hm] at h
    rcases mem_of_mem_edit h with hmem | ⟨e, he, rfl⟩
    · exact .kept hmem
    · exact .edited hm he
  cases m with
  | createElement type =>
    simp only [Session.mutate, Session.create] at h
    split at h
    · exact .kept h
    · next e he =>
      rcases Table.mem_of_mem_insert h with hmem | rfl
      · exact .kept hmem
      · exact .created he
  | deleteElement id =>
    simp only [Session.mutate] at h
    split_ifs at h
    · exact .kept (List.mem_of_mem_filter h)
    · exact .kept h
  | deleteSelected =>
    simp only [Session.mutate] at h
    split_ifs at h
    · exact .kept h
    · exact .kept (List.mem_of_mem_filter h)
  | setSelection ids => exact .kept h
  | setPosition id x y => exact hedit rfl
  | moveBy id dx dy => exact hedit rfl
  | resize id w height => exact hedit rfl
  | setProperty id key value => exact hedit rfl
  | rename id name => exact hedit rfl

/-! ## Mutations -/

variable {K : PropKind → Json → Prop} (hK : PropKind.IsSort K)

include hK

theorem keepsOrderly_of_edit? {least : Num} (hleast : (0 : Num).lt least = true) {m : Mutation}
    {key : String} {f : Element → Element.Edited} (h : m.edit? least = some (key, f)) :
    Element.KeepsOrderly K f := by
  cases m <;> simp only [Mutation.edit?, Option.some.injEq, Prod.mk.injEq, reduceCtorEq] at h <;>
    obtain ⟨rfl, rfl⟩ := h
  · exact Element.keepsOrderly_setPosition _ _
  · exact Element.keepsOrderly_moveBy _ _
  · exact Element.keepsOrderly_resize hleast _ _
  · exact Element.keepsOrderly_setProperty hK _ _
  · exact Element.keepsOrderly_rename _

variable {Q : σ → Prop} (hleast : (0 : Num).lt s.config.minExtent = true)
  (hfresh : s.allocator.Fresh) (hallocate : s.allocator.HandsOut Solid Q) (hids : Q s.ids)

include hleast hfresh hallocate hids

/-- A mutation keeps the scene orderly, also when it fails. -/
theorem orderly_mutate (h : s.scene.Orderly K) (m : Mutation) :
    (s.mutate m).2.scene.Orderly K := by
  refine ⟨(sound_mutate hfresh (h.sound hK) m).toConsistent, fun entry hentry => ?_⟩
  cases stems_of_mem_mutate hentry with
  | kept hmem => exact h.elements entry hmem
  | edited hedit he => exact (keepsOrderly_of_edit? hK hleast hedit).orderly _ (h.elements _ he)
  | created he => exact Element.orderly_of_create? hK (hallocate _ _ hids).1 he

/-- So do any mutations, which leave the configuration as it is. -/
theorem orderly_run_mutate (h : s.scene.Orderly K) (ms : List Mutation) :
    (s.run (ms.map .mutate)).scene.Orderly K ∧ (s.run (ms.map .mutate)).config = s.config := by
  induction ms generalizing s with
  | nil => exact ⟨h, rfl⟩
  | cons m ms ih =>
    have hscene := orderly_mutate hK hleast hfresh hallocate hids h m
    obtain ⟨scene, ids, heq, hstate⟩ := s.exists_mutate_eq m
    have hrun : s.run ((m :: ms).map .mutate) = (s.mutate m).2.run (ms.map .mutate) := rfl
    rw [heq] at hscene
    have hstate' : Q ids := by
      rcases hstate with rfl | rfl
      · exact hids
      · exact (hallocate _ _ hids).2
    rw [hrun, heq]
    exact ih hleast hfresh hallocate hstate' hscene

omit hK hfresh hallocate hids in
/-- An element that is given a size has no less than the least one. -/
theorem exists_get?_of_resize {id : String} {w h : Num}
    (hdone : (s.mutate (.resize id w h)).1 = .ok (.done true)) :
    ∃ e, (s.mutate (.resize id w h)).2.scene.elements.get? id = some e ∧
      s.config.minExtent.le e.w = true ∧ s.config.minExtent.le e.h = true := by
  have hleast' := (Num.isNaN_of_le (Num.le_of_lt hleast)).2
  rw [Session.mutate, Session.edit] at hdone ⊢
  cases hget : s.scene.elements.get? id with
  | none =>
    rw [hget] at hdone
    cases hdone
  | some e =>
    exact ⟨_, Table.get?_insert_self _ _ _, Num.le_max_left hleast' w, Num.le_max_left hleast' h⟩

end Session

/-! ## Runs -/

/-- The values that edits store under a prop of a kind, and null if it may be there. -/
def PropKind.StoresOr (null : Bool) : PropKind → Json → Prop
  | _, .null => null = true
  | k, v => k.Stores v

instance (null : Bool) : ∀ (k : PropKind) (v : Json), Decidable (k.StoresOr null v)
  | _, .null => inferInstanceAs (Decidable (null = true))
  | k, .bool b => inferInstanceAs (Decidable (k.Stores (.bool b)))
  | k, .num n => inferInstanceAs (Decidable (k.Stores (.num n)))
  | k, .str s => inferInstanceAs (Decidable (k.Stores (.str s)))
  | k, .arr items => inferInstanceAs (Decidable (k.Stores (.arr items)))
  | k, .obj members => inferInstanceAs (Decidable (k.Stores (.obj members)))

theorem PropKind.isSort_storesOr (null : Bool) : IsSort (StoresOr null) := by
  constructor
  · intro k v h
    cases v with
    | null => cases k <;> exact h.elim
    | _ => exact h
  · intro k v h
    cases k <;> cases v <;> trivial

namespace Session

/-- Any mutations of a scene whose document passes leave one whose document passes, with props of
their kinds, channels from zero to one, and null only if it may be there to begin with; and whenever
an element is given a size, it has no less than the least one. -/
theorem orderly_run {s : Session IdSource} {origin : Json.Origin}
    (hleast : (0 : Num).lt s.config.minExtent = true)
    (hlength : 4 ≤ s.config.idLength ∧ s.config.idLength ≤ 32)
    (hallocator : s.allocator = IdSource.allocate s.config.idLength) (hids : s.ids.Hexadecimal)
    (hpass : (issues origin s.scene.toDocument).map status = .ok "PASS") (null : Bool)
    (hprops : ∀ entry ∈ s.scene.elements.entries, ∀ prop ∈ entry.2.props.entries,
      ∃ spec ∈ propSpec? entry.2.type prop.1, spec.kind.StoresOr null prop.2)
    (ms : List Mutation) :
    (issues origin (s.run (ms.map .mutate)).scene.toDocument).map status = .ok "PASS" ∧
      (∀ entry ∈ (s.run (ms.map .mutate)).scene.elements.entries,
        ∀ prop ∈ entry.2.props.entries,
          ∃ spec ∈ propSpec? entry.2.type prop.1, spec.kind.StoresOr null prop.2) ∧
      ∀ id w h, ((s.run (ms.map .mutate)).mutate (.resize id w h)).1 = .ok (.done true) →
        ∃ e, ((s.run (ms.map .mutate)).mutate (.resize id w h)).2.scene.elements.get? id = some e ∧
          s.config.minExtent.le e.w = true ∧ s.config.minExtent.le e.h = true := by
  rw [status_eq_pass, Scene.issues_toDocument] at hpass
  have hscene : s.scene.Orderly (PropKind.StoresOr null) :=
    ⟨hpass.toConsistent, fun entry hentry => ⟨hpass.elements entry hentry, hprops entry hentry⟩⟩
  have hleaves : IdSource.Leaves s.config.idLength := by
    unfold IdSource.Leaves
    omega
  obtain ⟨horderly, hconfig⟩ := orderly_run_mutate (PropKind.isSort_storesOr null) hleast
    (hallocator ▸ IdSource.fresh_allocate _) (hallocator ▸ IdSource.handsOut_allocate hleaves) hids
    hscene ms
  refine ⟨status_eq_pass.2 (Scene.issues_toDocument.2 horderly.valid),
    fun entry hentry => (horderly.elements entry hentry).props, fun id w h hdone => ?_⟩
  rw [← hconfig] at hleast ⊢
  exact exists_get?_of_resize hleast hdone

/-- A panel is given a size that is too small, and a title a text that is none. -/
theorem orderly_run_panelAndTitle :
    let s := start .default Scene.panelAndTitle none (IdSource.allocate 6) (IdSource.ofGiven [])
    let s' := s.run ([.resize "a" 1 (.double .nan), .setProperty "b" "text" (.ofInt 3),
      .createElement "color"].map .mutate)
    (issues .memory s'.scene.toDocument).map status = .ok "PASS" ∧
      (∀ entry ∈ s'.scene.elements.entries, ∀ prop ∈ entry.2.props.entries,
        ∃ spec ∈ propSpec? entry.2.type prop.1, spec.kind.StoresOr false prop.2) ∧
      ∀ id w h, (s'.mutate (.resize id w h)).1 = .ok (.done true) →
        ∃ e, (s'.mutate (.resize id w h)).2.scene.elements.get? id = some e ∧
          (4 : Num).le e.w = true ∧ (4 : Num).le e.h = true :=
  orderly_run (s := start .default Scene.panelAndTitle none (IdSource.allocate 6)
    (IdSource.ofGiven [])) (by decide) (by decide) rfl (by decide)
    (status_eq_pass.2 (Scene.issues_toDocument.2 Scene.valid_panelAndTitle)) false
    (by decide +kernel) _

end Session

end SceneScript
