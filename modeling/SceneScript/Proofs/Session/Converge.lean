import SceneScript.Proofs.Script.Placed
import SceneScript.Proofs.Script.Silent
import SceneScript.Proofs.Session.Cycle

/-!
# Scripts taken in a second time

What keeps a scene still when a script that was taken in and patched is taken in again. Elements are
found by the ids on their markers, so none comes or goes as long as the candidates have the ids of
the scene, each once (`Scene.Readable.reconcile_of_marked`). That is so when the lines outside the
blocks of the script make no candidates, or when there are no blocks (`Session.ingest_of_silent`),
but not if a comment stands between a marker and its block.

Blocks are written with the places of their elements and are read in the contexts that they stand
in, so an element stays where it is exactly when its block stands in a context at the origin
(`Session.places_of_ingest`).
-/

namespace SceneScript

open Lua Text

/-! ## Candidates with the ids of a scene -/

namespace Scene

variable {σ : Type} {s : Scene} (h : s.Readable)

include h

/-- When the candidates have the ids of the scene, each once, they are matched by them in their
order, and no id comes or goes. -/
theorem Readable.reconcile_of_marked (allocate : Allocator σ) {cs : List Candidate}
    {ids : List String} (hids : cs.map Candidate.id? = ids.map some) (hperm : ids.Perm s.order)
    (state : σ) : (s.reconcile allocate cs state).1.decisions.map (fun d => (d.id, d.reason)) =
        ids.map (·, .idMatch) ∧
      (s.reconcile allocate cs state).1.scene.order.Perm s.order ∧
      (s.reconcile allocate cs state).1.scene.elements.keys.Perm s.elements.keys := by
  have hmarked : ∀ (c : Candidate) (e : Element), c.id? = some e.id →
      s.elements.get? e.id = some e → c.markedId? = some e.id := by
    intro c e hc he
    have hne : e.id.isEmpty = false := by
      rw [Bool.eq_false_iff, Ne, String.isEmpty_iff]
      exact fun hempty => (h.elements _ (Table.mem_of_get? he)).id_ne (by rw [hempty]; rfl)
    rw [Candidate.markedId?, hc, Option.filter_some, hne]
    rfl
  -- the elements that the candidates name
  obtain ⟨es, rfl, hall⟩ : ∃ es : List Element, es.map Element.id = ids ∧
      List.Forall₂ (fun e c => s.elements.get? e.id = some e ∧ c.markedId? = some e.id) es cs := by
    have hsub : ids ⊆ s.elements.keys := (hperm.trans h.order).subset
    clear hperm
    induction ids generalizing cs with
    | nil => exact ⟨[], rfl, by rw [List.map_eq_nil_iff.1 hids]; exact .nil⟩
    | cons id ids ih =>
      rw [List.cons_subset] at hsub
      obtain ⟨c, cs, rfl, hc, hcs⟩ := List.map_eq_cons_iff.1 hids
      obtain ⟨es, rfl, hall⟩ := ih hcs hsub.2
      obtain ⟨e, he⟩ := Table.exists_get?_of_mem hsub.1
      obtain rfl : e.id = id := h.id_of_get? he
      exact ⟨e :: es, rfl, .cons ⟨he, hmarked c e hc he⟩ hall⟩
  have hstep : ∀ (m : MergeState) (index : ℕ) (e : Element) (c : Candidate) (state : σ),
      s.elements.get? e.id = some e ∧ c.markedId? = some e.id → e.id ∉ m.claimed →
      e.id ∉ m.elements.keys → ∃ claimed, (∀ id ∈ claimed, id = e.id ∨ id ∈ m.claimed) ∧
        m.step allocate s index c state = (({ m with claimed := claimed } : MergeState).add
          (c.update e) ⟨e.id, .idMatch, some index, some c.line⟩, state) :=
    fun m index e c state hr hnot _ => ⟨e.id :: m.claimed, by simp,
      m.step_of_marked index state hr.2 hr.1 hnot⟩
  obtain ⟨m, es', hsteps, hes', hentries, horder, hdecisions⟩ :=
    MergeState.steps_of_marked (m := .start) (f := fun e c => c.update e) (fun _ _ => rfl) hstep
      hall (hperm.nodup_iff.2 h.nodup_order) (by simp [MergeState.start])
      (by simp [MergeState.start, Table.empty, Table.keys, Entries.keys]) 0 state
  have hupdated : es'.map Element.id = es.map Element.id := by
    refine (map_eq_of_forall₂ (fun e e' he => ?_) hes').symm
    obtain ⟨c, -, rfl⟩ := he
    rfl
  have hkeys : m.elements.keys = es.map Element.id := by
    rw [Table.keys, Entries.keys, hentries, MergeState.start, Table.empty, List.nil_append,
      List.map_map, ← hupdated]
    rfl
  rw [MergeState.start, List.nil_append, hupdated] at horder
  have hreasons : es'.map (fun e => (e.id, Reason.idMatch)) =
      (es.map Element.id).map (·, .idMatch) := by
    rw [← hupdated, List.map_map]
    rfl
  rw [MergeState.start, List.map_nil, List.nil_append, hreasons] at hdecisions
  cases cs with
  | nil =>
    obtain rfl := List.forall₂_nil_right_iff.1 hall
    exact ⟨rfl, .refl _, .refl _⟩
  | cons c cs =>
    have hkeep : s.orderedElements.foldl MergeState.keep m = m := by
      refine MergeState.foldl_keep_of_mem fun e he => ?_
      rw [hkeys, hperm.mem_iff, ← h.map_id_orderedElements]
      exact List.mem_map_of_mem he
    have hresult : (s.reconcile allocate (c :: cs) state).1 = m.result := by
      rw [reconcile, hsteps]
      · exact congrArg MergeState.result hkeep
      · simp
    have horder : m.order.Perm s.order := horder ▸ hperm
    have hkeys : m.elements.keys.Perm s.elements.keys := hkeys ▸ hperm.trans h.order
    rw [hresult]
    exact ⟨hdecisions, horder, hkeys⟩

end Scene

namespace Session

variable {σ : Type}

/-- A script that is taken in and patched is patched for the scene that it leads to. -/
theorem patch_of_ingest {s : Session σ} {text : List Char} {outcome : Outcome}
    (hok : (s.step (.ingest text true)).1 = .ok outcome) :
    (s.step (.ingest text true)).2.scene.patch text =
      .ok (s.step (.ingest text true)).2.code := by
  have hstep : s.step (.ingest text true) = thenRegenerate (s.takeIn text) := rfl
  rw [hstep] at hok ⊢
  cases hcs : candidatesOf text with
  | error err =>
    rw [takeIn, hcs] at hok
    simp [thenRegenerate] at hok
  | ok cs =>
    rw [takeIn_of_ok hcs, thenRegenerate, regenerate] at hok ⊢
    dsimp only at hok ⊢
    cases hpatch : (s.scene.reconcile s.allocator cs s.ids).1.scene.patch text with
    | error err => simp [hpatch] at hok
    | ok code => exact hpatch

/-- A session that starts empty. -/
def fresh : Session IdSource :=
  start .default .empty none (IdSource.allocate 6) (IdSource.ofGiven [])

/-- A session that starts empty, after it has taken in a script and patched it. -/
def havingTakenIn (text : List Char) : Session IdSource := fresh.run [.ingest text true]

/-! ## Identities -/

/-- When the lines outside the blocks of a script make no candidates, or there are no blocks, what
the script has become creates no element: every element is matched by its id, once, nothing else is
decided, and no id comes or goes. Only a script with blocks may become one that cannot be read, and
then nothing changes. -/
theorem ingest_of_silent {s : Session σ} {text : List Char} {parts : List Segment}
    (hparts : segments ((LineBreak.ofText text).lines text) = .ok parts)
    (hsilent : parts.any Segment.isBlock = true → ∀ l ∈ linesOutside parts, isSilent l = true)
    {outcome : Outcome} (hok : (s.step (.ingest text true)).1 = .ok outcome)
    (hreadable : (s.step (.ingest text true)).2.scene.Readable) :
    let s' := (s.step (.ingest text true)).2
    let r := s'.step (.ingest s'.code false)
    (r.1 = .ok (.decided r.2.decisions) ∧ (r.2.decisions.map fun d => (d.id, d.reason)).Perm
        (s'.scene.order.map (·, .idMatch)) ∨
      parts.any Segment.isBlock = true ∧ ∃ err, r = (.error err, s')) ∧
    r.2.scene.order.Perm s'.scene.order ∧
      r.2.scene.elements.keys.Perm s'.scene.elements.keys := by
  intro s' r
  have hr : r = s'.takeIn s'.code := rfl
  cases hcs : candidatesOf s'.code with
  | error err =>
    have herr : r = (.error (.number err), s') := by rw [hr, takeIn, hcs]
    have hblock : parts.any Segment.isBlock = true := by
      by_contra hblock
      obtain ⟨cs, hok⟩ := hreadable.exists_candidatesOf_patch hparts (by simpa using hblock)
        (patch_of_ingest hok)
      cases hcs.symm.trans hok
    rw [herr]
    exact ⟨.inr ⟨hblock, _, rfl⟩, .refl _, .refl _⟩
  | ok cs =>
    obtain ⟨ids, hperm, hids⟩ :=
      hreadable.exists_ids_of_patch hparts hsilent (patch_of_ingest hok) hcs
    obtain ⟨hdecisions, horder, hkeys⟩ :=
      hreadable.reconcile_of_marked s'.allocator hids hperm s'.ids
    rw [hr, takeIn_of_ok hcs]
    exact ⟨.inl ⟨rfl, hdecisions ▸ hperm.map _⟩, horder, hkeys⟩

/-- A script with a box, whose comments are outside its block. -/
def notedScript : List Char :=
  ("-- A box.\nfunction draw()\nUiPush()\n--TDGUI id=a type=rect\nUiPush()\nUiRect(1, 1)\n" ++
    "UiPop()\n-- No more boxes.\nUiPop()\nend\n").toList

/-- Its lines and its block. -/
def notedParts : List Segment :=
  [.line "-- A box.".toList, .line "function draw()".toList, .line "UiPush()".toList,
    .block "a" "--TDGUI id=a type=rect".toList
      ["UiPush()".toList, "UiRect(1, 1)".toList, "UiPop()".toList],
    .line "-- No more boxes.".toList, .line "UiPop()".toList, .line "end".toList, .line []]

theorem ingest_of_silent_notedScript :
    let s' := (fresh.step (.ingest notedScript true)).2
    let r := s'.step (.ingest s'.code false)
    (r.1 = .ok (.decided r.2.decisions) ∧ (r.2.decisions.map fun d => (d.id, d.reason)).Perm
        (s'.scene.order.map (·, .idMatch)) ∨
      notedParts.any Segment.isBlock = true ∧ ∃ err, r = (.error err, s')) ∧
    r.2.scene.order.Perm s'.scene.order ∧
      r.2.scene.elements.keys.Perm s'.scene.elements.keys := by
  have hfacts : (fresh.step (.ingest notedScript true)).1.toOption.isSome = true ∧
      (∀ entry ∈ (fresh.step (.ingest notedScript true)).2.scene.elements.entries,
        entry.2.id = entry.1 ∧ entry.2.IsBare) ∧
      (fresh.step (.ingest notedScript true)).2.scene.order.Perm
        (fresh.step (.ingest notedScript true)).2.scene.elements.keys := by
    decide +kernel
  obtain ⟨hok, hbare, hperm⟩ := hfacts
  cases houtcome : (fresh.step (.ingest notedScript true)).1 with
  | error err => simp [houtcome, Except.toOption] at hok
  | ok outcome =>
    exact @ingest_of_silent _ fresh notedScript notedParts (by decide +kernel)
      (fun _ => by decide +kernel) _ houtcome (Scene.readable_of_isBare hbare hperm)

/-- A script with a comment between a marker and its block. -/
def commentedScript : List Char :=
  ("function draw()\nUiPush()\n" ++
    "--TDGUI id=a type=rect\n-- note\nUiPush()\nUiRect(1, 1)\nUiPop()\n" ++
    "--TDGUI id=b type=rect\nUiPush()\nUiRect(1, 1)\nUiPop()\nUiPop()\nend\n").toList

/-- The marker is not found to own the block, so a second block is put in, and the next time the
script is taken in two candidates have the same id: one of them becomes a new element. -/
theorem decisions_commentedScript :
    (havingTakenIn commentedScript).scene.Readable ∧
      (havingTakenIn commentedScript).scene.order = ["a", "b"] ∧
      ((havingTakenIn commentedScript).step
        (.ingest (havingTakenIn commentedScript).code false)).2.decisions.map
          (fun d => (d.id, d.reason)) =
        [("a", .idMatch), ("b", .idMatch), ("000100", .freshId)] := by
  have hfacts : ((∀ entry ∈ (havingTakenIn commentedScript).scene.elements.entries,
      entry.2.id = entry.1 ∧ entry.2.IsBare) ∧ (havingTakenIn commentedScript).scene.order.Perm
        (havingTakenIn commentedScript).scene.elements.keys) ∧
      (havingTakenIn commentedScript).scene.order = ["a", "b"] ∧
      ((havingTakenIn commentedScript).step
        (.ingest (havingTakenIn commentedScript).code false)).2.decisions.map
          (fun d => (d.id, d.reason)) =
        [("a", .idMatch), ("b", .idMatch), ("000100", .freshId)] := by
    decide +kernel
  exact ⟨Scene.readable_of_isBare hfacts.1.1 hfacts.1.2, hfacts.2⟩

/-! ## Places -/

/-- After a script is taken in and patched whose lines outside the blocks name no owner, the
candidates with an id are one for each element. An element is found at its place in the context that
its block stands in, so at its own place exactly when that context is at the origin, if it is at a
whole place. -/
theorem places_of_ingest {s : Session σ} {text : List Char} {parts : List Segment}
    (hparts : segments ((LineBreak.ofText text).lines text) = .ok parts)
    (hplain : parts.any Segment.isBlock = true → ∀ l ∈ linesOutside parts, NamesNoOwner l)
    {outcome : Outcome} (hok : (s.step (.ingest text true)).1 = .ok outcome)
    (hreadable : (s.step (.ingest text true)).2.scene.Readable)
    (hwhole : ∀ entry ∈ (s.step (.ingest text true)).2.scene.elements.entries,
      entry.2.x.IsWholeWithin (Nat.pow 2 50) ∧ entry.2.y.IsWholeWithin (Nat.pow 2 50))
    {cs : List Candidate} (hcs : candidatesOf (s.step (.ingest text true)).2.code = .ok cs) :
    let s' := (s.step (.ingest text true)).2
    (cs.filterMap Candidate.id?).Perm s'.scene.order ∧ ∀ c ∈ cs, ∀ id, c.id? = some id →
      ∃ e x y x₀ y₀, s'.scene.elements.get? id = some e ∧ e.x.whole? = some x ∧
        e.y.whole? = some y ∧ e.StandsAt s'.code x₀ y₀ ∧ x₀.add (.int x) = .ok c.x ∧
        y₀.add (.int y) = .ok c.y ∧ ∀ a b : ℤ, x₀ = .int a → y₀ = .int b →
          (c.x.whole? = e.x.whole? ∧ c.y.whole? = e.y.whole? ↔ a = 0 ∧ b = 0) := by
  intro s'
  obtain ⟨hperm, hplaces⟩ :=
    hreadable.places_of_patch hparts hplain (patch_of_ingest hok) hcs
  refine ⟨hperm, fun c hc id hid => ?_⟩
  obtain ⟨e, x, y, x₀, y₀, hget, hx, hy, hstands, hcx, hcy⟩ := hplaces c hc id hid
  obtain ⟨⟨k, hk, hkle⟩, l, hl, hlle⟩ := hwhole _ (Table.mem_of_get? hget)
  obtain rfl : x = k := Except.ok.inj (hx.symm.trans (Num.roundHalfUp_of_whole hk hkle))
  obtain rfl : y = l := Except.ok.inj (hy.symm.trans (Num.roundHalfUp_of_whole hl hlle))
  refine ⟨e, x, y, x₀, y₀, hget, hk, hl, hstands, hcx, hcy, fun a b ha hb => ?_⟩
  subst ha hb
  rw [← Except.ok.inj hcx, ← Except.ok.inj hcy, hk, hl]
  change some (a + x) = some x ∧ some (b + y) = some y ↔ _
  rw [Option.some_inj, Option.some_inj]
  omega

/-- A script with a block in a context that has moved. -/
def movedScript : List Char :=
  ("function draw()\nUiPush()\nUiTranslate(10, 20)\n--TDGUI id=a type=rect\nUiPush()\n" ++
    "UiTranslate(1, 2)\nUiRect(1, 1)\nUiPop()\nUiPop()\nend\n").toList

/-- Its lines and its block. -/
def movedParts : List Segment :=
  [.line "function draw()".toList, .line "UiPush()".toList, .line "UiTranslate(10, 20)".toList,
    .block "a" "--TDGUI id=a type=rect".toList
      ["UiPush()".toList, "UiTranslate(1, 2)".toList, "UiRect(1, 1)".toList, "UiPop()".toList],
    .line "UiPop()".toList, .line "end".toList, .line []]

theorem places_of_ingest_movedScript :
    ∃ cs, candidatesOf (fresh.step (.ingest movedScript true)).2.code = .ok cs ∧
      let s' := (fresh.step (.ingest movedScript true)).2
      (cs.filterMap Candidate.id?).Perm s'.scene.order ∧ ∀ c ∈ cs, ∀ id, c.id? = some id →
        ∃ e x y x₀ y₀, s'.scene.elements.get? id = some e ∧ e.x.whole? = some x ∧
          e.y.whole? = some y ∧ e.StandsAt s'.code x₀ y₀ ∧ x₀.add (.int x) = .ok c.x ∧
          y₀.add (.int y) = .ok c.y ∧ ∀ a b : ℤ, x₀ = .int a → y₀ = .int b →
            (c.x.whole? = e.x.whole? ∧ c.y.whole? = e.y.whole? ↔ a = 0 ∧ b = 0) := by
  have hfacts : (fresh.step (.ingest movedScript true)).1.toOption.isSome = true ∧
      (candidatesOf (fresh.step (.ingest movedScript true)).2.code).toOption.isSome = true ∧
      (∀ entry ∈ (fresh.step (.ingest movedScript true)).2.scene.elements.entries,
        entry.2.id = entry.1 ∧ entry.2.IsBare) ∧
      (fresh.step (.ingest movedScript true)).2.scene.order.Perm
        (fresh.step (.ingest movedScript true)).2.scene.elements.keys ∧
      ∀ entry ∈ (fresh.step (.ingest movedScript true)).2.scene.elements.entries,
        entry.2.x.IsWholeWithin (Nat.pow 2 50) ∧ entry.2.y.IsWholeWithin (Nat.pow 2 50) := by
    decide +kernel
  obtain ⟨hok, hread, hbare, hperm, hwhole⟩ := hfacts
  have hplain : ∀ l ∈ linesOutside movedParts, afterWord? Marker.word (trim l) = none := by
    decide +kernel
  cases houtcome : (fresh.step (.ingest movedScript true)).1 with
  | error err => simp [houtcome, Except.toOption] at hok
  | ok outcome =>
    cases hcs : candidatesOf (fresh.step (.ingest movedScript true)).2.code with
    | error err => simp [hcs, Except.toOption] at hread
    | ok cs =>
      exact ⟨cs, rfl, @places_of_ingest _ fresh movedScript movedParts (by decide +kernel)
        (fun _ l hl => namesNoOwner_of_read (read_of_afterWord? (hplain l hl))) _ houtcome
        (Scene.readable_of_isBare hbare hperm) hwhole _ hcs⟩

/-- The block is read at (11, 22), is written with that place into the same context, and is read
farther away then. -/
theorem places_movedScript :
    (havingTakenIn movedScript).scene.Readable ∧
      (havingTakenIn movedScript).scene.orderedElements.map (fun e => (e.id, e.x, e.y)) =
        [("a", .int 11, .int 22)] ∧
      (candidatesOf (havingTakenIn movedScript).code).map
        (fun cs => cs.map fun c => (c.id?, c.x, c.y)) = .ok [(some "a", .int 21, .int 42)] := by
  have hfacts : ((∀ entry ∈ (havingTakenIn movedScript).scene.elements.entries,
      entry.2.id = entry.1 ∧ entry.2.IsBare) ∧ (havingTakenIn movedScript).scene.order.Perm
        (havingTakenIn movedScript).scene.elements.keys) ∧
      (havingTakenIn movedScript).scene.orderedElements.map (fun e => (e.id, e.x, e.y)) =
        [("a", .int 11, .int 22)] ∧
      (candidatesOf (havingTakenIn movedScript).code).map
        (fun cs => cs.map fun c => (c.id?, c.x, c.y)) = .ok [(some "a", .int 21, .int 42)] := by
    decide +kernel
  exact ⟨Scene.readable_of_isBare hfacts.1.1 hfacts.1.2, hfacts.2⟩

end Session

end SceneScript
