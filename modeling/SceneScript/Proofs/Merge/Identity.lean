import SceneScript.Proofs.Merge.Account

/-!
# Who takes over an element

The candidates of a script come one by one, and each takes over an element that none before it has
taken over. What a candidate finds is thus decided by those before it, and the decisions tell what
they have done (`MergeState.History`): an element is gone if a candidate of its id or one of its
name has come first.

Main statement: where markers give distinct ids, a candidate gets the element of its id unless an
earlier one has taken the element over by name (`Scene.idMatch_iff_reconcile`).
-/

namespace SceneScript

/-- The id of the element that a decision takes over. -/
def Decision.taken? (d : Decision) : Option String :=
  match d.reason with
  | .idMatch | .nameMatch => some d.id
  | .metadataId | .freshId | .notInScript => none

theorem Decision.taken?_eq_some_iff {d : Decision} {id : String} :
    d.taken? = some id ↔ (d.reason = .idMatch ∨ d.reason = .nameMatch) ∧ d.id = id := by
  obtain ⟨id', reason, candidate?, line?⟩ := d
  cases reason <;> simp [taken?]

namespace Candidate

variable {s : Scene} {c : Candidate} {claimed : List String} {e : Element}

theorem match?_eq_idMatch (hid : c.markedId? = some e.id) (he : s.elements.get? e.id = some e)
    (hfree : e.id ∉ claimed) : c.match? s claimed = some (e, .idMatch) := by
  have : c.idMatch? s claimed = some e := by
    rw [idMatch?, hid, Option.bind_some, if_neg (by simpa using hfree), he]
  rw [match?, this]
  rfl

theorem markedId?_of_idMatch? (hkeys : ∀ entry ∈ s.elements.entries, entry.2.id = entry.1)
    (h : c.idMatch? s claimed = some e) : c.markedId? = some e.id := by
  obtain ⟨id, hid, hget⟩ := Option.bind_eq_some_iff.1 h
  split at hget
  · simp at hget
  · obtain rfl : e.id = id := hkeys _ (Table.mem_of_get? hget)
    exact hid

theorem name?_of_nameMatch? (h : c.nameMatch? s claimed = some e) : c.name? = some e.name := by
  obtain ⟨name, hname, hfind⟩ := Option.bind_eq_some_iff.1 h
  have htest := List.find?_some hfind
  simp only [Bool.and_eq_true, decide_eq_true_eq] at htest
  rw [hname, htest.1]

end Candidate

namespace MergeState

/-! ## What the decisions tell -/

/-- What the decisions of a merge tell of the candidates that it has seen. -/
structure History (s : Scene) (m : MergeState) (seen : List Candidate) : Prop where
  length_eq : m.decisions.length = seen.length
  claimed_eq : m.claimed.reverse = m.decisions.filterMap Decision.taken?
  byId : ∀ d ∈ m.decisions, d.reason = .idMatch → ∃ c ∈ seen, c.markedId? = some d.id
  byName : ∀ d ∈ m.decisions, d.reason = .nameMatch →
    ∃ c ∈ seen, ∃ e, s.elements.get? d.id = some e ∧ c.name? = some e.name

theorem history_start (s : Scene) : History s start [] :=
  ⟨rfl, rfl, by simp [start], by simp [start]⟩

variable {s : Scene} {m : MergeState} {seen : List Candidate}

namespace History

/-- An element is gone exactly when a decision takes it over. -/
theorem mem_claimed_iff (h : History s m seen) {id : String} : id ∈ m.claimed ↔
    ∃ d ∈ m.decisions, (d.reason = .idMatch ∨ d.reason = .nameMatch) ∧ d.id = id := by
  rw [← List.mem_reverse, h.claimed_eq, List.mem_filterMap]
  simp only [Decision.taken?_eq_some_iff]

/-- An element whose id no candidate has had is gone exactly when it has been taken over by name. -/
theorem notMem_claimed_iff (h : History s m seen) {id : String}
    (hseen : ∀ c ∈ seen, c.markedId? ≠ some id) : id ∉ m.claimed ↔
      ∀ d ∈ m.decisions, d.reason = .nameMatch → d.id ≠ id := by
  rw [h.mem_claimed_iff]
  refine ⟨fun hnot d hd hreason heq => hnot ⟨d, hd, .inr hreason, heq⟩, ?_⟩
  rintro hnames ⟨d, hd, hreason | hreason, rfl⟩
  · obtain ⟨c, hc, hid⟩ := h.byId d hd hreason
    exact hseen c hc hid
  · exact hnames d hd hreason rfl

/-- What a further decision has to tell. -/
theorem add (h : History s m seen) {c : Candidate} {d : Decision} {claimed : List String}
    (e : Element) (hclaimed : claimed = d.taken?.toList ++ m.claimed)
    (hid : d.reason = .idMatch → c.markedId? = some d.id)
    (hname : d.reason = .nameMatch →
      ∃ e', s.elements.get? d.id = some e' ∧ c.name? = some e'.name) :
    History s (({ m with claimed := claimed } : MergeState).add e d) (seen ++ [c]) := by
  refine ⟨?_, ?_, fun d' hd' hreason => ?_, fun d' hd' hreason => ?_⟩
  · rw [MergeState.add, List.length_append, List.length_append, h.length_eq]
    rfl
  · subst hclaimed
    rw [MergeState.add, List.filterMap_append, ← h.claimed_eq, List.reverse_append]
    cases htaken : d.taken? <;> simp [htaken]
  · rcases List.mem_append.1 hd' with hd' | hd'
    · obtain ⟨c', hc', h'⟩ := h.byId d' hd' hreason
      exact ⟨c', List.mem_append_left _ hc', h'⟩
    · obtain rfl := List.mem_singleton.1 hd'
      exact ⟨c, List.mem_append_right _ (List.mem_singleton_self c), hid hreason⟩
  · rcases List.mem_append.1 hd' with hd' | hd'
    · obtain ⟨c', hc', h'⟩ := h.byName d' hd' hreason
      exact ⟨c', List.mem_append_left _ hc', h'⟩
    · obtain rfl := List.mem_singleton.1 hd'
      exact ⟨c, List.mem_append_right _ (List.mem_singleton_self c), hname hreason⟩

end History

variable {σ : Type} (allocate : Allocator σ)

section Keys

variable (hkeys : ∀ entry ∈ s.elements.entries, entry.2.id = entry.1)

include hkeys

/-- The decision about a candidate tells of this candidate. -/
theorem History.step (h : History s m seen) (index : ℕ) (c : Candidate) (state : σ) :
    History s (m.step allocate s index c state).1 (seen ++ [c]) := by
  unfold MergeState.step
  split
  · next e reason hmatch =>
    have hget : s.elements.get? e.id = some e :=
      Table.get?_eq_some_iff.2 (Candidate.mem_of_match? hkeys hmatch).1
    rcases Candidate.of_match? hmatch with ⟨rfl, hid⟩ | ⟨rfl, hname⟩
    · exact h.add _ rfl (fun _ => Candidate.markedId?_of_idMatch? hkeys hid) (by simp)
    · exact h.add _ rfl (by simp) fun _ => ⟨e, hget, Candidate.name?_of_nameMatch? hname⟩
  · have hnew : ∀ d : Decision, d.reason = .metadataId ∨ d.reason = .freshId → ∀ e,
        History s (m.add e d) (seen ++ [c]) := by
      rintro d (hreason | hreason) e
      all_goals
        exact h.add e (by simp [Decision.taken?, hreason]) (by simp [hreason]) (by simp [hreason])
    exact hnew _ (newId_reason allocate m s c state) _

/-- The decisions about candidates tell of these candidates. -/
theorem History.steps (h : History s m seen) (index : ℕ) (cs : List Candidate) (state : σ) :
    History s (m.steps allocate s index cs state).1 (seen ++ cs) := by
  induction cs generalizing m seen index state with
  | nil => simpa [MergeState.steps] using h
  | cons c cs ih =>
    have := ih (h.step allocate hkeys index c state) (index + 1)
      (m.step allocate s index c state).2
    rwa [List.append_assoc] at this

end Keys

/-! ## One candidate among others -/

variable {allocate} in
/-- A candidate takes over the element of its id, unless that is claimed. -/
theorem step_of_marked (m : MergeState) (index : ℕ) {e : Element} {c : Candidate} (state : σ)
    (hc : c.markedId? = some e.id) (he : s.elements.get? e.id = some e) (hnot : e.id ∉ m.claimed) :
    m.step allocate s index c state =
      (({ m with claimed := e.id :: m.claimed } : MergeState).add (c.update e)
        ⟨e.id, .idMatch, some index, some c.line⟩, state) := by
  rw [step, Candidate.match?_eq_idMatch hc he hnot]

/-- The candidates of a list are taken one after another. -/
theorem steps_append (m : MergeState) (index : ℕ) (cs cs' : List Candidate) (state : σ) :
    m.steps allocate s index (cs ++ cs') state =
      (m.steps allocate s index cs state).1.steps allocate s (index + cs.length) cs'
        (m.steps allocate s index cs state).2 := by
  induction cs generalizing m index state with
  | nil => rfl
  | cons c cs ih =>
    rw [List.length_cons, ← Nat.add_assoc, Nat.add_right_comm]
    exact ih (m.step allocate s index c state).1 (index + 1) (m.step allocate s index c state).2

/-- A candidate adds one decision. -/
theorem exists_decisions_step (m : MergeState) (index : ℕ) (c : Candidate) (state : σ) :
    ∃ d, (m.step allocate s index c state).1.decisions = m.decisions ++ [d] := by
  unfold MergeState.step
  split
  · exact ⟨_, rfl⟩
  · exact ⟨_, rfl⟩

/-- Decisions stay when further candidates come. -/
theorem decisions_prefix_steps (m : MergeState) (index : ℕ) (cs : List Candidate) (state : σ) :
    m.decisions <+: (m.steps allocate s index cs state).1.decisions := by
  induction cs generalizing m index state with
  | nil => exact List.prefix_rfl
  | cons c cs ih =>
    obtain ⟨d, hd⟩ := exists_decisions_step (s := s) allocate m index c state
    have hstep : m.decisions <+: (m.step allocate s index c state).1.decisions :=
      hd ▸ List.prefix_append _ _
    exact hstep.trans (ih _ _ _)

/-- Decisions stay when elements are kept. -/
theorem decisions_prefix_foldl_keep (m : MergeState) (es : List Element) :
    m.decisions <+: (es.foldl keep m).decisions := by
  induction es generalizing m with
  | nil => exact List.prefix_rfl
  | cons e es ih =>
    have hkeep : m.decisions <+: (m.keep e).decisions := by
      unfold keep
      split
      · exact List.prefix_rfl
      · exact List.prefix_append _ _
    exact hkeep.trans (ih _)

/-- A candidate gets the element of its id exactly when the element is not gone. -/
theorem decision_step_eq_idMatch_iff
    (hkeys : ∀ entry ∈ s.elements.entries, entry.2.id = entry.1) {c : Candidate} {e : Element}
    (hid : c.markedId? = some e.id) (he : s.elements.get? e.id = some e) (m : MergeState)
    (index : ℕ) (state : σ) {d : Decision}
    (hd : (m.step allocate s index c state).1.decisions = m.decisions ++ [d]) :
    d = ⟨e.id, .idMatch, some index, some c.line⟩ ↔ e.id ∉ m.claimed := by
  unfold MergeState.step at hd
  split at hd
  · next e' reason hmatch =>
    obtain rfl := List.singleton_inj.1 (List.append_cancel_left hd)
    refine ⟨fun heq => ?_, fun hfree => ?_⟩
    · obtain ⟨hid', -⟩ := Decision.mk.inj heq
      exact hid' ▸ (Candidate.mem_of_match? hkeys hmatch).2
    · rw [Candidate.match?_eq_idMatch hid he hfree] at hmatch
      obtain ⟨rfl, rfl⟩ := Prod.mk.inj (Option.some.inj hmatch)
      rfl
  · next hmatch =>
    obtain rfl := List.singleton_inj.1 (List.append_cancel_left hd)
    refine ⟨fun heq => ?_, fun hfree => ?_⟩
    · have hreason := (Decision.mk.inj heq).2.1
      rcases newId_reason allocate m s c state with h | h
      all_goals exact absurd (h.symm.trans hreason) (by decide)
    · rw [Candidate.match?_eq_idMatch hid he hfree] at hmatch
      cases hmatch

end MergeState

/-! ## All candidates -/

namespace Scene

variable {s : Scene} (hkeys : ∀ entry ∈ s.elements.entries, entry.2.id = entry.1)

include hkeys in
/-- Where markers give distinct ids, a candidate whose marker gives the id of an element gets that
element, unless one before it has taken the element over by name; and only a candidate whose marker
gives the name of the element can have done so. -/
theorem idMatch_iff_reconcile {σ : Type} (allocate : Allocator σ) {cs : List Candidate}
    (hnodup : (cs.filterMap Candidate.markedId?).Nodup) {i : ℕ} {c : Candidate}
    (hc : cs[i]? = some c) {e : Element} (hid : c.markedId? = some e.id)
    (he : s.elements.get? e.id = some e) (state : σ) :
    ((s.reconcile allocate cs state).1.decisions[i]? =
        some ⟨e.id, .idMatch, some i, some c.line⟩ ↔
      ∀ d ∈ (s.reconcile allocate cs state).1.decisions.take i,
        d.reason = .nameMatch → d.id ≠ e.id) ∧
    ((∀ c' ∈ cs.take i, c'.name? ≠ some e.name) →
      (s.reconcile allocate cs state).1.decisions[i]? =
        some ⟨e.id, .idMatch, some i, some c.line⟩) := by
  obtain ⟨seen, rest, rfl, rfl⟩ : ∃ seen rest, cs = seen ++ c :: rest ∧ seen.length = i := by
    obtain ⟨hi, rfl⟩ := List.getElem?_eq_some_iff.1 hc
    refine ⟨cs.take i, cs.drop (i + 1), ?_, List.length_take_of_le hi.le⟩
    rw [← List.drop_eq_getElem_cons, List.take_append_drop]
  have hothers : ∀ c' ∈ seen, c'.markedId? ≠ some e.id := by
    intro c' hc' hid'
    rw [List.filterMap_append, List.nodup_append] at hnodup
    exact hnodup.2.2 e.id (List.mem_filterMap.2 ⟨c', hc', hid'⟩) e.id
      (List.mem_filterMap.2 ⟨c, List.mem_cons_self, hid⟩) rfl
  have hhistory := (MergeState.history_start s).steps allocate hkeys 0 seen state
  rw [List.nil_append] at hhistory
  rw [reconcile_of_ne_nil allocate s (by simp) state, MergeState.steps_append, Nat.zero_add,
    MergeState.steps]
  set m := (MergeState.start.steps allocate s 0 seen state).1
  set state' := (MergeState.start.steps allocate s 0 seen state).2
  obtain ⟨d, hd⟩ := MergeState.exists_decisions_step (s := s) allocate m seen.length c state'
  -- what comes behind the candidate does not touch the decisions up to it
  obtain ⟨later, hlater⟩ := ((m.step allocate s seen.length c state').1.decisions_prefix_steps
    allocate (s := s) (seen.length + 1) rest (m.step allocate s seen.length c state').2).trans
      (MergeState.decisions_prefix_foldl_keep _ s.orderedElements)
  rw [hd, List.append_assoc] at hlater
  rw [MergeState.result, ← hlater, List.take_left' hhistory.length_eq,
    List.getElem?_append_right hhistory.length_eq.le, hhistory.length_eq, Nat.sub_self]
  have hiff : d = ⟨e.id, .idMatch, some seen.length, some c.line⟩ ↔
      ∀ d' ∈ m.decisions, d'.reason = .nameMatch → d'.id ≠ e.id :=
    (MergeState.decision_step_eq_idMatch_iff allocate hkeys hid he m _ state' hd).trans
      (hhistory.notMem_claimed_iff hothers)
  refine ⟨Option.some_inj.trans hiff, fun hnames => congrArg some (hiff.2 ?_)⟩
  intro d' hd' hreason heq
  obtain ⟨c', hc', e', he', hname⟩ := hhistory.byName d' hd' hreason
  obtain rfl : e = e' := Option.some.inj (he.symm.trans (heq ▸ he'))
  exact hnames c' (by simpa using hc') hname

/-- A candidate that takes the title over by its name does not come between the panel and its id. -/
theorem idMatch_panelAndTitle : (panelAndTitle.reconcile (IdSource.allocate 6)
    [boxCandidate none (some "Title") 5, boxCandidate (some "a") none 9]
    (IdSource.ofGiven [])).1.decisions[1]? = some ⟨"a", .idMatch, some 1, some 9⟩ :=
  have hid : (boxCandidate (some "a") none 9).markedId? = some panel.id := by decide +kernel
  (idMatch_iff_reconcile (s := panelAndTitle) (by decide +kernel) (IdSource.allocate 6)
    (by decide +kernel) rfl hid rfl (IdSource.ofGiven [])).2 (by decide +kernel)

/-- A candidate that takes the panel over by its name is in the way of one that has its id. -/
theorem not_forall_idMatch : ¬ ∀ (s : Scene) (cs : List Candidate) (i : ℕ) (c : Candidate)
    (e : Element), (∀ entry ∈ s.elements.entries, entry.2.id = entry.1) →
    s.order.Perm s.elements.keys → (cs.filterMap Candidate.markedId?).Nodup →
    cs[i]? = some c → c.markedId? = some e.id → s.elements.get? e.id = some e →
    (s.reconcile (IdSource.allocate 6) cs (IdSource.ofGiven [])).1.decisions[i]? =
      some ⟨e.id, .idMatch, some i, some c.line⟩ := by
  intro h
  exact absurd (h panelAndTitle [boxCandidate none (some "Panel") 5, boxCandidate (some "a") none 9]
    1 _ panel (by decide +kernel) (by decide +kernel) (by decide +kernel) rfl (by decide +kernel)
    rfl) (by decide +kernel)

end Scene

end SceneScript
