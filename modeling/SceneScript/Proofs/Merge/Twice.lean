import SceneScript.Proofs.Merge.Identity

/-!
# The same candidates twice

A candidate that got its element by the id on its marker finds that element again in the scene that
it was put into. What it makes of the element then is what it has made before: its own values, and
of the props those it has and those of the type (`MergeState.Makes.alike_update`).

Main statement: when all candidates go by their ids, reconciling them again with the resulting scene
changes nothing, and its decisions are the same but that every candidate now finds its element
(`Scene.reconcile_reconcile`).
-/

namespace SceneScript

/-! ## Elements alike -/

/-- That two elements are equal, their props as look-ups. -/
structure Element.Alike (e e' : Element) : Prop where
  id : e'.id = e.id
  type : e'.type = e.type
  name : e'.name = e.name
  x : e'.x = e.x
  y : e'.y = e.y
  w : e'.w = e.w
  h : e'.h = e.h
  props : ∀ key, e'.props.get? key = e.props.get? key

theorem Element.Alike.refl (e : Element) : e.Alike e :=
  ⟨rfl, rfl, rfl, rfl, rfl, rfl, rfl, fun _ => rfl⟩

/-- That two scenes have the same order and selection, and equal elements under the same keys. -/
structure Scene.Alike (s s' : Scene) : Prop where
  order : s'.order = s.order
  selection : s'.selection = s.selection
  elements : List.Forall₂ (fun entry entry' => entry'.1 = entry.1 ∧ entry.2.Alike entry'.2)
    s.elements.entries s'.elements.entries

theorem Scene.Alike.refl (s : Scene) : s.Alike s :=
  ⟨rfl, rfl, List.forall₂_same.2 fun entry _ => ⟨rfl, .refl entry.2⟩⟩

theorem nonemptyOr_nonemptyOr (first? : Option String) (second : String) :
    nonemptyOr first? (nonemptyOr first? second) = nonemptyOr first? second := by
  cases first? with
  | none => rfl
  | some first =>
    simp only [nonemptyOr]
    split <;> rfl

/-- A merge has the props that come in, and of the others those that the type has. -/
theorem get?_mergeProps (existing incoming : Table Json) (type key : String) :
    (mergeProps existing incoming type).get? key = (incoming.get? key).or
      (if (propSpec? type key).isSome then existing.get? key else none) := by
  rw [mergeProps, Table.get?_merge]
  split
  · next hknown => rw [Table.get?_filter fun _ => hknown]
  · next hknown => rw [Table.get?_filter_eq_none fun _ => by simpa using hknown]

namespace MergeState

/-- What a candidate has made of an element or made anew stays as it is when the candidate takes it
over. -/
theorem Makes.alike_update {s : Scene} {c : Candidate} {index : ℕ} {e : Element} {d : Decision}
    (h : Makes s c index e d) : e.Alike (c.update e) := by
  cases h with
  | @update e reason he hreason =>
    refine ⟨rfl, rfl, nonemptyOr_nonemptyOr _ _, rfl, rfl, rfl, rfl, fun key => ?_⟩
    simp only [Candidate.update, get?_mergeProps]
    cases c.props.get? key <;> cases (propSpec? c.type key).isSome <;> rfl
  | create hid hreason =>
    refine ⟨rfl, rfl, nonemptyOr_nonemptyOr _ _, rfl, rfl, rfl, rfl, fun key => ?_⟩
    simp only [Candidate.update, Candidate.create, get?_mergeProps]
    cases c.props.get? key <;> cases (propSpec? c.type key).isSome <;> rfl

/-! ## Candidates that go by their ids -/

section Steps

variable {σ : Type} (allocate : Allocator σ) {s : Scene}

theorem markedId?_of_newId {m : MergeState} {c : Candidate} {state : σ}
    (h : (m.newId allocate s c state).1.2 = .metadataId) :
    c.markedId? = some (m.newId allocate s c state).1.1 := by
  unfold newId at h ⊢
  split
  · next id hid => exact (Option.filter_eq_some_iff.1 hid).1
  · next hnone =>
    rw [hnone] at h
    exact absurd h (by simp)

variable (hkeys : ∀ entry ∈ s.elements.entries, entry.2.id = entry.1)

include hkeys

/-- A decision by the id on a marker is one about that id. -/
theorem markedId?_of_step (m : MergeState) (index : ℕ) (c : Candidate) (state : σ) {d : Decision}
    (hd : (m.step allocate s index c state).1.decisions = m.decisions ++ [d])
    (hreason : d.reason = .idMatch ∨ d.reason = .metadataId) : c.markedId? = some d.id := by
  unfold MergeState.step at hd
  split at hd
  · next e reason hmatch =>
    obtain rfl := List.singleton_inj.1 (List.append_cancel_left hd)
    rcases Candidate.of_match? hmatch with ⟨rfl, hid⟩ | ⟨rfl, -⟩
    · exact Candidate.markedId?_of_idMatch? hkeys hid
    · simp at hreason
  · obtain rfl := List.singleton_inj.1 (List.append_cancel_left hd)
    refine markedId?_of_newId allocate (hreason.resolve_left fun hmatch => ?_)
    rcases newId_reason allocate m s c state with h | h
    all_goals exact absurd (h.symm.trans hmatch) (by decide)

theorem exists_decisions_steps (m : MergeState) (index : ℕ) (cs : List Candidate) (state : σ) :
    ∃ ds, (m.steps allocate s index cs state).1.decisions = m.decisions ++ ds ∧
      List.Forall₂ (fun c d => d.reason = .idMatch ∨ d.reason = .metadataId →
        c.markedId? = some d.id) cs ds := by
  induction cs generalizing m index state with
  | nil => exact ⟨[], (List.append_nil _).symm, .nil⟩
  | cons c cs ih =>
    obtain ⟨d, hd⟩ := exists_decisions_step (s := s) allocate m index c state
    obtain ⟨ds, hds, hall⟩ := ih (m.step allocate s index c state).1 (index + 1)
      (m.step allocate s index c state).2
    refine ⟨d :: ds, ?_, .cons (markedId?_of_step allocate hkeys m index c state hd) hall⟩
    rw [steps, hds, hd, List.append_assoc, List.singleton_append]

end Steps

/-- Candidates with the ids of distinct elements all find them. -/
theorem exists_decisions_steps_of_marked {σ : Type} (allocate : Allocator σ) {s : Scene}
    {cs : List Candidate} {es : List Element}
    (hcs : List.Forall₂ (fun c e => c.markedId? = some e.id ∧ s.elements.get? e.id = some e) cs es)
    (hnodup : (es.map Element.id).Nodup) (m : MergeState) (hfree : ∀ e ∈ es, e.id ∉ m.claimed)
    (index : ℕ) (state : σ) :
    ∃ ds, (m.steps allocate s index cs state).1.decisions = m.decisions ++ ds ∧
      List.Forall₂ (fun e d => d.reason = .idMatch ∧ d.id = e.id) es ds := by
  induction hcs generalizing m index with
  | nil => exact ⟨[], (List.append_nil _).symm, .nil⟩
  | @cons c e cs es hc hcs ih =>
    obtain ⟨hid, he⟩ := hc
    rw [List.map_cons, List.nodup_cons] at hnodup
    have hfree' : ∀ e' ∈ es, e'.id ∉ e.id :: m.claimed := by
      intro e' he' hmem
      rcases List.mem_cons.1 hmem with heq | hmem
      · exact hnodup.1 (heq ▸ List.mem_map_of_mem he')
      · exact hfree e' (List.mem_cons_of_mem _ he') hmem
    have hstep : m.step allocate s index c state = _ :=
      m.step_of_marked index state hid he (hfree e List.mem_cons_self)
    obtain ⟨ds, hds, hall⟩ := ih hnodup.2
      (({ m with claimed := e.id :: m.claimed } : MergeState).add (c.update e)
        ⟨e.id, .idMatch, some index, some c.line⟩) hfree' (index + 1)
    refine ⟨⟨e.id, .idMatch, some index, some c.line⟩ :: ds, ?_, .cons ⟨rfl, rfl⟩ hall⟩
    rw [steps, hstep, hds, add, List.append_assoc, List.singleton_append]

end MergeState

/-! ## All candidates -/

/-- A decision made again: a candidate finds its element, and an element that was kept is kept. -/
def Decision.again (d : Decision) : Decision :=
  if d.reason = .notInScript then d else { d with reason := .idMatch }

/-- A candidate that finds what it has made leaves it as it is. -/
theorem MergeState.Makes.again {s s' : Scene} {c : Candidate} {index : ℕ} {e e' : Element}
    {d d' : Decision} (h : Makes s c index e d) (h' : Makes s' c index e' d')
    (hget : s'.elements.get? e.id = some e) (hd' : d'.reason = .idMatch ∧ d'.id = e.id) :
    e.Alike e' ∧ d' = d.again := by
  obtain ⟨hreason, hid⟩ := hd'
  have hd := h.id_eq
  cases h' with
  | @update e₀ reason he _ =>
    obtain rfl : reason = .idMatch := hreason
    obtain rfl : e₀ = e := by
      rw [← show e₀.id = e.id from hid, he] at hget
      exact Option.some.inj hget
    refine ⟨h.alike_update, ?_⟩
    cases h with
    | update _ hfirst => rcases hfirst with rfl | rfl <;> rfl
    | create _ hfirst => rcases hfirst with rfl | rfl <;> rfl
  | create _ hnew =>
    rcases hnew with rfl | rfl <;> cases hreason

namespace Scene

section Decisions

variable {σ : Type} {allocate : Allocator σ} {s : Scene} {cs : List Candidate} (hne : cs ≠ [])
  {state : σ} {made : List (Element × Decision)} {kept : List Decision}
  (hmade : made.length = cs.length)
  (hdecisions : (s.reconcile allocate cs state).1.decisions = made.map Prod.snd ++ kept)

include hne hmade hdecisions

/-- What holds of the decisions of the candidates holds of the first decisions of the result. -/
theorem forall₂_made_of_steps {α : Type} {as : List α} {P : α → Decision → Prop}
    (has : as.length = cs.length)
    (h : ∃ ds, (MergeState.start.steps allocate s 0 cs state).1.decisions =
      MergeState.start.decisions ++ ds ∧ List.Forall₂ P as ds) :
    List.Forall₂ (fun a q => P a q.2) as made := by
  obtain ⟨ds, hds, hall⟩ := h
  have hprefix : ds <+: made.map Prod.snd ++ kept := by
    rw [← hdecisions, reconcile_of_ne_nil allocate s hne state]
    have := (MergeState.start.steps allocate s 0 cs state).1.decisions_prefix_foldl_keep
      s.orderedElements
    rwa [hds] at this
  have hlength : ds.length = (made.map Prod.snd).length := by
    rw [← hall.length_eq, List.length_map, has, hmade]
  obtain rfl : ds = made.map Prod.snd :=
    (List.prefix_of_prefix_length_le hprefix (List.prefix_append _ _) hlength.le).eq_of_length
      hlength
  exact List.forall₂_map_right_iff.1 hall

/-- Candidates with the ids of elements of the scene find these elements. -/
theorem forall₂_found {es others : List Element} (hs : s.ConsistsOf (es ++ others))
    (hmarked : List.Forall₂ (fun c e => c.markedId? = some e.id) cs es) :
    List.Forall₂ (fun e q => q.2.reason = .idMatch ∧ q.2.id = e.id) es made := by
  have hcs : List.Forall₂ (fun c e => c.markedId? = some e.id ∧ s.elements.get? e.id = some e)
      cs es :=
    (forall₂_mem_left hmarked.flip).flip.imp fun c e h =>
      ⟨h.2, hs.get?_of_mem (List.mem_append_left _ h.1)⟩
  have hnodup := hs.nodup
  rw [List.map_append] at hnodup
  exact forall₂_made_of_steps hne hmade hdecisions hcs.length_eq.symm
    (MergeState.exists_decisions_steps_of_marked allocate hcs (List.nodup_append.1 hnodup).1
      .start (by simp [MergeState.start]) 0 state)

end Decisions

section Twice

variable {s : Scene} (hkeys : ∀ entry ∈ s.elements.entries, entry.2.id = entry.1)
  {σ : Type} {allocate : Allocator σ}

include hkeys

/-- Candidates that go by their ids have made elements under the ids on their markers. -/
theorem forall₂_markedId?_made {cs : List Candidate} (hne : cs ≠ []) {state : σ}
    {made : List (Element × Decision)} {kept : List Decision}
    (hmarked : ∀ d ∈ (s.reconcile allocate cs state).1.decisions, d.candidate? ≠ none →
      d.reason = .idMatch ∨ d.reason = .metadataId)
    (hall : List.Forall₂ (fun p q => MergeState.Makes s p.1 p.2 q.1 q.2) cs.zipIdx made)
    (hdecisions : (s.reconcile allocate cs state).1.decisions = made.map Prod.snd ++ kept) :
    List.Forall₂ (fun c q => c.markedId? = some q.1.id) cs made := by
  have hlength : made.length = cs.length := by rw [← hall.length_eq, List.length_zipIdx]
  have hmakes : List.Forall₂ (fun c q => ∃ index, MergeState.Makes s c index q.1 q.2) cs made := by
    rw [← List.zipIdx_map_fst 0 cs, List.forall₂_map_left_iff]
    exact hall.imp fun p q h => ⟨p.2, h⟩
  have hids := forall₂_made_of_steps hne hlength hdecisions rfl
    (MergeState.exists_decisions_steps allocate hkeys .start 0 cs state)
  refine hmakes.mp ?_ (forall₂_mem_left hids.flip).flip
  rintro c q ⟨index, h⟩ ⟨hq, hid⟩
  have hreason := hmarked q.2
    (hdecisions ▸ List.mem_append_left _ (List.mem_map_of_mem hq)) (by simp [h.candidate?_eq])
  rw [hid hreason, h.id_eq]

variable (horder : s.order.Perm s.elements.keys) (hfresh : allocate.Fresh)

include horder hfresh

/-- When all candidates of a script got their elements by the ids on their markers, reconciling them
again with the scene that they have made gives an equal scene: every candidate finds the element
that it made, and the elements that were kept are kept. -/
theorem reconcile_reconcile {cs : List Candidate} {state : σ}
    (hmarked : ∀ d ∈ (s.reconcile allocate cs state).1.decisions, d.candidate? ≠ none →
      d.reason = .idMatch ∨ d.reason = .metadataId) (state' : σ) :
    let r := (s.reconcile allocate cs state).1
    let r' := (r.scene.reconcile allocate cs state').1
    r.scene.Alike r'.scene ∧ r'.decisions = r.decisions.map Decision.again := by
  intro r r'
  by_cases hne : cs = []
  · subst hne
    exact ⟨.refl _, rfl⟩
  obtain ⟨made, others, hall, hothers, hentries, hids, hselection, hdecisions⟩ :=
    exists_reconcile_eq hkeys horder hfresh hne state
  have hr : r.scene.ConsistsOf (made.map Prod.fst ++ others) := ⟨hentries, hids⟩
  obtain ⟨made', others', hall', hothers', hentries', hids', hselection', hdecisions'⟩ :=
    exists_reconcile_eq hr.keys (.of_eq hr.keys_eq.symm) hfresh hne state'
  -- every candidate finds the element that it made
  have hmarkedIds : List.Forall₂ (fun c e => c.markedId? = some e.id) cs (made.map Prod.fst) :=
    List.forall₂_map_right_iff.2 (forall₂_markedId?_made hkeys hne hmarked hall hdecisions)
  have hlength' : made'.length = cs.length := by rw [← hall'.length_eq, List.length_zipIdx]
  have hfound := List.forall₂_map_left_iff.1
    (forall₂_found hne hlength' hdecisions' hr hmarkedIds)
  have hagain : List.Forall₂ (fun q q' => q.1.Alike q'.1 ∧ q'.2 = q.2.again) made made' := by
    refine (forall₂_mem_left (forall₂_of_common hall hall')).mp ?_ hfound
    rintro q q' ⟨hq, p, h, h'⟩ hq'
    have hmem := List.mem_append_left others (List.mem_map_of_mem (f := Prod.fst) hq)
    exact h.again h' (hr.get?_of_mem hmem) hq'
  have hmadeIds : (made'.map Prod.fst).map Element.id = (made.map Prod.fst).map Element.id := by
    rw [List.map_map, List.map_map]
    exact (map_eq_of_forall₂ (fun q q' h => h.1.id.symm) hagain).symm
  -- and what is left is what was kept
  have hkept : others' = others := by
    have hnone : (made.map Prod.fst).filter
        (fun e => e.id ∉ (made.map Prod.fst).map Element.id) = [] := by
      rw [List.filter_eq_nil_iff]
      exact fun e he => by simpa using List.mem_map_of_mem (f := Element.id) he
    have hall : others.filter (fun e => e.id ∉ (made.map Prod.fst).map Element.id) = others := by
      rw [hothers, List.filter_filter]
      simp
    rw [hothers', hr.orderedElements_eq, hmadeIds, List.filter_append, hnone, hall, List.nil_append]
  subst hkept
  refine ⟨⟨?_, hselection'.trans hselection.symm, ?_⟩, ?_⟩
  · rw [hids', hids, List.map_append, List.map_append, hmadeIds]
  · rw [hentries', hentries, List.forall₂_map_left_iff, List.forall₂_map_right_iff]
    refine List.rel_append ?_ (List.forall₂_same.2 fun e _ => ⟨rfl, .refl e⟩)
    rw [List.forall₂_map_left_iff, List.forall₂_map_right_iff]
    exact hagain.imp fun q q' h => ⟨h.1.id, h.1⟩
  · rw [hdecisions', hdecisions, List.map_append, List.map_map, List.map_map]
    exact congrArg₂ (· ++ ·) (map_eq_of_forall₂ (fun q q' h => h.2.symm) hagain).symm rfl

end Twice

/-- One candidate brings its own id, the next finds the panel, and the title is kept. -/
theorem reconcile_reconcile_panelAndTitle :
    let cs := [boxCandidate (some "c") none 5, boxCandidate (some "a") (some "Box") 9]
    let r := (panelAndTitle.reconcile (IdSource.allocate 6) cs (IdSource.ofGiven [])).1
    let r' := (r.scene.reconcile (IdSource.allocate 6) cs (IdSource.ofGiven [])).1
    r.decisions.map Decision.reason = [.metadataId, .idMatch, .notInScript] ∧
      r.scene.Alike r'.scene ∧ r'.decisions = [⟨"c", .idMatch, some 0, some 5⟩,
        ⟨"a", .idMatch, some 1, some 9⟩, ⟨"b", .notInScript, none, none⟩] := by
  intro cs r r'
  have hdecisions : r.decisions = [⟨"c", .metadataId, some 0, some 5⟩,
      ⟨"a", .idMatch, some 1, some 9⟩, ⟨"b", .notInScript, none, none⟩] := by decide +kernel
  have hmarked : ∀ d ∈ (panelAndTitle.reconcile (IdSource.allocate 6) cs
      (IdSource.ofGiven [])).1.decisions, d.candidate? ≠ none →
        d.reason = .idMatch ∨ d.reason = .metadataId := by decide +kernel
  obtain ⟨halike, hagain⟩ := reconcile_reconcile (s := panelAndTitle) (by decide +kernel)
    (by decide +kernel) (IdSource.fresh_allocate 6) hmarked (IdSource.ofGiven [])
  refine ⟨by rw [hdecisions]; rfl, halike, hagain.trans ?_⟩
  exact (congrArg (List.map Decision.again) hdecisions).trans rfl

end Scene

end SceneScript
