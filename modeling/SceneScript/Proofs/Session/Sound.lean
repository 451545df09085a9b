import SceneScript.Proofs.Merge.Sound
import SceneScript.Proofs.Session.Run

/-!
# Sound sessions

A session with a sound scene keeps one, whatever is done to it: a step that fails has done nothing
to the scene, or only part of a move, and a script that is taken in can only say what a sound scene
may hold. New ids have to be new, nothing else is asked of what hands them out.

Main statement: after any steps the scene is sound, its document breaks no rule that ties its parts
together, and taking in a script loses no id (`Session.sound_run`).
-/

namespace SceneScript.Session

variable {σ : Type} {s : Session σ}

/-! ## Mutations -/

theorem sound_edit (h : s.scene.Sound) (key : String) {f : Element → Element.Edited}
    (hf : Element.KeepsSound f) : (s.edit key f).2.scene.Sound := by
  unfold Session.edit
  cases hget : s.scene.elements.get? key with
  | none => exact h
  | some e =>
    have hid : (f e).2.id = key := (hf.id e).trans (h.id_of_get? hget)
    have hscene : (s.scene.replace key (f e).2).Sound :=
      h.replace (Table.mem_keys_of_get? hget) hid
        (hf.sound e (h.elements _ (Table.mem_of_get? hget)))
    dsimp only
    cases (f e).1 with
    | ok b => exact hscene
    | error err => exact hscene

theorem sound_create (hfresh : s.allocator.Fresh) (h : s.scene.Sound) (type : String) :
    (s.create type).2.scene.Sound := by
  unfold Session.create
  dsimp only
  split
  · exact h
  · next e he =>
    refine h.add (Element.sound_of_create? he) ?_
    rw [Element.id_of_create? he]
    exact hfresh s.scene.elements.keys s.ids

/-- A mutation keeps the scene sound, also when it fails. -/
theorem sound_mutate (hfresh : s.allocator.Fresh) (h : s.scene.Sound) (m : Mutation) :
    (s.mutate m).2.scene.Sound := by
  cases m with
  | createElement type => exact sound_create hfresh h type
  | deleteElement id =>
    simp only [Session.mutate]
    split_ifs
    · exact h.remove id
    · exact h
  | deleteSelected =>
    simp only [Session.mutate]
    split_ifs
    · exact h
    · exact h.removeSelected
  | setSelection ids => exact h.select ids
  | setPosition id x y => exact sound_edit h id (Element.keepsSound_setPosition x y)
  | moveBy id dx dy => exact sound_edit h id (Element.keepsSound_moveBy dx dy)
  | resize id w height =>
    exact sound_edit h id (Element.keepsSound_resize s.config.minExtent w height)
  | setProperty id key value => exact sound_edit h id (Element.keepsSound_setProperty key value)
  | rename id name =>
    rw [Session.mutate]
    exact sound_edit h id (Element.keepsSound_rename name)

/-! ## Steps -/

/-- Patching the script after a step leaves the scene of the step. -/
theorem scene_thenRegenerate (stepped : Stepped σ) :
    (thenRegenerate stepped).2.scene = stepped.2.scene := by
  rcases thenRegenerate_snd stepped with heq | heq
  · rw [heq]
  · rw [heq, scene_regenerate]

theorem scene_ingest (s : Session σ) (text : List Char) (regenerate : Bool) :
    (s.ingest text regenerate).2.scene = (s.takeIn text).2.scene := by
  unfold Session.ingest
  dsimp only
  split
  · exact scene_thenRegenerate (s.takeIn text)
  · rfl

/-- The scene after a script is taken in is reconciled with its candidates, if it has them. -/
theorem scene_takeIn (s : Session σ) (text : List Char) : (s.takeIn text).2.scene = s.scene ∨
    ∃ cs, candidatesOf text = .ok cs ∧
      (s.takeIn text).2.scene = (s.scene.reconcile s.allocator cs s.ids).1.scene := by
  cases hcs : candidatesOf text with
  | error err =>
    refine .inl ?_
    rw [takeIn, hcs]
  | ok cs =>
    refine .inr ⟨cs, rfl, ?_⟩
    rw [takeIn, hcs]

theorem sound_takeIn (hfresh : s.allocator.Fresh) (h : s.scene.Sound) (text : List Char) :
    (s.takeIn text).2.scene.Sound := by
  rcases s.scene_takeIn text with heq | ⟨cs, hcs, heq⟩
  · exact heq ▸ h
  · rw [heq]
    exact h.reconcile hfresh (sound_of_candidatesOf hcs) s.ids

theorem mem_keys_takeIn (h : s.scene.Sound) (text : List Char) {id : String}
    (hid : id ∈ s.scene.elements.keys) : id ∈ (s.takeIn text).2.scene.elements.keys := by
  rcases s.scene_takeIn text with heq | ⟨cs, -, heq⟩
  · exact heq ▸ hid
  · rw [heq]
    exact h.mem_keys_reconcile s.allocator cs s.ids hid

/-- A step keeps the scene sound, also when it fails. -/
theorem sound_step (hfresh : s.allocator.Fresh) (h : s.scene.Sound) (step : SessionStep) :
    (s.step step).2.scene.Sound := by
  cases step with
  | mutate m => exact sound_mutate hfresh h m
  | apply m => exact scene_thenRegenerate (s.mutate m) ▸ sound_mutate hfresh h m
  | regenerate => exact s.scene_regenerate ▸ h
  | ingest text regenerate => exact s.scene_ingest text regenerate ▸ sound_takeIn hfresh h text

/-- A mutation changes the scene, and the state of what hands out ids when it asks for one. -/
theorem exists_mutate_eq (s : Session σ) (m : Mutation) : ∃ scene ids,
    (s.mutate m).2 = { s with scene := scene, ids := ids } ∧
      (ids = s.ids ∨ ids = (s.allocator s.scene.elements.keys s.ids).2) := by
  have hedit : ∀ key f, ∃ scene ids, (s.edit key f).2 = { s with scene := scene, ids := ids } ∧
      (ids = s.ids ∨ ids = (s.allocator s.scene.elements.keys s.ids).2) := by
    intro key f
    unfold Session.edit
    cases s.scene.elements.get? key with
    | none => exact ⟨s.scene, s.ids, rfl, .inl rfl⟩
    | some e =>
      dsimp only
      cases (f e).1 <;> exact ⟨_, s.ids, rfl, .inl rfl⟩
  cases m with
  | createElement type =>
    simp only [Session.mutate, Session.create]
    split <;> exact ⟨_, _, rfl, .inr rfl⟩
  | deleteElement id =>
    simp only [Session.mutate]
    split_ifs <;> exact ⟨_, s.ids, rfl, .inl rfl⟩
  | deleteSelected =>
    simp only [Session.mutate]
    split_ifs <;> exact ⟨_, s.ids, rfl, .inl rfl⟩
  | setSelection ids => exact ⟨_, s.ids, rfl, .inl rfl⟩
  | setPosition id x y => exact hedit id _
  | moveBy id dx dy => exact hedit id _
  | resize id w height => exact hedit id _
  | setProperty id key value => exact hedit id _
  | rename id name =>
    rw [Session.mutate]
    exact hedit id _

theorem allocator_mutate (s : Session σ) (m : Mutation) :
    (s.mutate m).2.allocator = s.allocator := by
  obtain ⟨scene, ids, h, -⟩ := s.exists_mutate_eq m
  rw [h]

theorem allocator_thenRegenerate (stepped : Stepped σ) :
    (thenRegenerate stepped).2.allocator = stepped.2.allocator := by
  obtain ⟨code, hcode⟩ := stepped.2.regenerate_snd
  rcases thenRegenerate_snd stepped with heq | heq
  · rw [heq]
  · rw [heq, hcode]

theorem allocator_takeIn (s : Session σ) (text : List Char) :
    (s.takeIn text).2.allocator = s.allocator := by
  unfold takeIn
  split <;> rfl

/-- What hands out ids stays the same, only its state changes. -/
theorem allocator_step (s : Session σ) (step : SessionStep) :
    (s.step step).2.allocator = s.allocator := by
  cases step with
  | mutate m => exact s.allocator_mutate m
  | apply m => exact (allocator_thenRegenerate _).trans (s.allocator_mutate m)
  | regenerate =>
    obtain ⟨code, hcode⟩ := s.regenerate_snd
    change s.regenerate.2.allocator = s.allocator
    rw [hcode]
  | ingest text regenerate =>
    change (s.ingest text regenerate).2.allocator = s.allocator
    unfold Session.ingest
    dsimp only
    split
    · exact (allocator_thenRegenerate _).trans (s.allocator_takeIn text)
    · exact s.allocator_takeIn text

/-! ## Runs -/

/-- What a run keeps is kept by all its steps, failing ones included. -/
theorem sound_scene_run (hfresh : s.allocator.Fresh) (h : s.scene.Sound)
    (steps : List SessionStep) : (s.run steps).scene.Sound := by
  induction steps generalizing s with
  | nil => exact h
  | cons step steps ih =>
    exact ih (s.allocator_step step ▸ hfresh) (sound_step hfresh h step)

/-- After any steps of a session that starts with a sound scene, the scene is sound, its document
breaks no rule that ties its parts together, and taking in a script loses none of its ids. -/
theorem sound_run (hfresh : s.allocator.Fresh) (h : s.scene.Sound) (steps : List SessionStep) :
    (s.run steps).scene.Sound ∧
      Validation.invariantFindings (s.run steps).scene.toDocument = [] ∧
      ∀ text regenerate, ∀ id ∈ (s.run steps).scene.elements.keys,
        id ∈ ((s.run steps).step (.ingest text regenerate)).2.scene.elements.keys := by
  have hrun := sound_scene_run hfresh h steps
  refine ⟨hrun, hrun.invariantFindings_eq_nil, fun text regenerate id hid => ?_⟩
  have hscene : ((s.run steps).step (.ingest text regenerate)).2.scene =
      ((s.run steps).takeIn text).2.scene := scene_ingest _ text regenerate
  rw [hscene]
  exact mem_keys_takeIn hrun text hid

/-- A label is drawn, a group is refused, and a script is taken in. -/
theorem sound_run_label :
    let s := (start .default .empty none (IdSource.allocate 6) (IdSource.ofGiven [])).run
      [.mutate (.createElement "text"), .apply (.createElement "group"),
        .ingest "UiPush()\nUiRect(1, 2)\nUiPop()".toList true]
    s.scene.Sound ∧ Validation.invariantFindings s.scene.toDocument = [] ∧
      ∀ text regenerate, ∀ id ∈ s.scene.elements.keys,
        id ∈ (s.step (.ingest text regenerate)).2.scene.elements.keys :=
  sound_run (IdSource.fresh_allocate 6) Scene.sound_empty _

end SceneScript.Session
