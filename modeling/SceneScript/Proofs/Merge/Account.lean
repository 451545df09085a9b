import SceneScript.Proofs.Merge.Sound

/-!
# The account of a merge

Every candidate takes over an element of the scene or makes one, and no two make elements under one
id. A merge of all candidates is therefore what was there before, the elements made, one for each
candidate and in their order, and behind them the elements of the scene that no candidate has taken
over.

Main statement: nothing is lost, doubled or changed on the way, and the decisions say of every
element where it comes from (`Scene.exists_accounts`).
-/

namespace SceneScript

/-! ## One candidate -/

/-- That an element is as a candidate describes it, with all its props. -/
structure Candidate.Tells (c : Candidate) (e : Element) : Prop where
  type : e.type = c.type
  x : e.x = c.x
  y : e.y = c.y
  w : e.w = c.w
  h : e.h = c.h
  props : ∀ entry ∈ c.props.entries, e.props.get? entry.1 = some entry.2

namespace Candidate

theorem tells_create (c : Candidate) (id : String) : c.Tells (c.create id) :=
  ⟨rfl, rfl, rfl, rfl, rfl, fun _ hentry => Table.get?_eq_some_iff.2 hentry⟩

theorem tells_update (c : Candidate) (e : Element) : c.Tells (c.update e) := by
  refine ⟨rfl, rfl, rfl, rfl, rfl, fun entry hentry => ?_⟩
  have hget : c.props.get? entry.1 = some entry.2 := Table.get?_eq_some_iff.2 hentry
  rw [update, mergeProps, Table.get?_merge, hget, Option.some_or]

end Candidate

namespace MergeState

namespace Makes

variable {s : Scene} {c : Candidate} {index : ℕ} {e : Element} {d : Decision}
  (h : Makes s c index e d)

include h

theorem id_eq : d.id = e.id := by
  cases h <;> rfl

theorem candidate?_eq : d.candidate? = some index := by
  cases h <;> rfl

theorem tells : c.Tells e := by
  cases h with
  | update he hreason => exact c.tells_update _
  | create hid hreason => exact c.tells_create _

/-- An element is updated exactly when the scene has its id. -/
theorem action_eq_iff : d.reason.action = "UPDATE_EXISTING" ↔ d.id ∈ s.elements.keys := by
  cases h with
  | update he hreason =>
    have hkey := Table.mem_keys_of_get? he
    rcases hreason with rfl | rfl <;> simp [Reason.action, hkey]
  | create hid hreason => rcases hreason with rfl | rfl <;> simp [Reason.action, hid]

end Makes

/-! ## All candidates -/

variable {σ : Type} {allocate : Allocator σ} (hfresh : allocate.Fresh) {s : Scene}
  (hkeys : ∀ entry ∈ s.elements.entries, entry.2.id = entry.1)

include hfresh hkeys

/-- Candidates add one element and one decision each, in their order. -/
theorem exists_steps {m : MergeState} (hclaims : m.Claims s) (cs : List Candidate) (index : ℕ)
    (state : σ) :
    ∃ made : List (Element × Decision),
      List.Forall₂ (fun p q => Makes s p.1 p.2 q.1 q.2) (cs.zipIdx index) made ∧
      (m.steps allocate s index cs state).1.elements.entries =
        m.elements.entries ++ (made.map Prod.fst).map (fun e => (e.id, e)) ∧
      (m.steps allocate s index cs state).1.order =
        m.order ++ (made.map Prod.fst).map Element.id ∧
      (m.steps allocate s index cs state).1.decisions = m.decisions ++ made.map Prod.snd := by
  induction cs generalizing m index state with
  | nil => exact ⟨[], .nil, by simp [steps], by simp [steps], by simp [steps]⟩
  | cons c cs ih =>
    obtain ⟨claimed, e, d, hmakes, hnew, hstep, hclaims'⟩ :=
      exists_step hfresh hkeys hclaims c index state
    obtain ⟨made, hall, hentries, horder, hdecisions⟩ :=
      ih hclaims' (index + 1) (m.step allocate s index c state).2
    have hinsert : ((m.step allocate s index c state).1.elements).entries =
        m.elements.entries ++ [(e.id, e)] := by
      rw [hstep]
      exact Table.insert_of_notMem hnew e
    refine ⟨(e, d) :: made, .cons hmakes hall, ?_, ?_, ?_⟩
    · exact hentries.trans (by rw [hinsert, List.append_assoc]; rfl)
    · exact horder.trans (by rw [hstep]; exact List.append_assoc m.order [e.id] _)
    · exact hdecisions.trans (by rw [hstep]; exact List.append_assoc m.decisions [d] _)

end MergeState

/-! ## Kept elements -/

namespace MergeState

/-- The elements that a merge would keep: those of other ids than it has. -/
def others (m : MergeState) (es : List Element) : List Element :=
  es.filter fun e => e.id ∉ m.elements.keys

/-- Keeping elements adds those of other ids, in their order and as they are. -/
theorem foldl_keep_eq (m : MergeState) {es : List Element} (hnodup : (es.map Element.id).Nodup) :
    (es.foldl keep m).elements.entries =
        m.elements.entries ++ (m.others es).map (fun e => (e.id, e)) ∧
      (es.foldl keep m).order = m.order ++ (m.others es).map Element.id ∧
      (es.foldl keep m).decisions =
        m.decisions ++ (m.others es).map fun e => ⟨e.id, .notInScript, none, none⟩ := by
  induction es generalizing m with
  | nil => simp [others]
  | cons e es ih =>
    rw [List.map_cons, List.nodup_cons] at hnodup
    obtain ⟨hentries, horder, hdecisions⟩ := ih (m.keep e) hnodup.2
    by_cases hmem : e.id ∈ m.elements.keys
    · have hkeep : m.keep e = m := if_pos (Table.contains_iff.2 hmem)
      have hothers : m.others (e :: es) = m.others es :=
        List.filter_cons_of_neg (by simpa using hmem)
      rw [List.foldl_cons, hothers]
      rw [hkeep] at hentries horder hdecisions ⊢
      exact ⟨hentries, horder, hdecisions⟩
    · have hkeep : m.keep e = m.add e ⟨e.id, .notInScript, none, none⟩ :=
        if_neg fun hcontains => hmem (Table.contains_iff.1 hcontains)
      -- no later element has this id, so the later ones are kept or not as before
      have hsame : (m.keep e).others es = m.others es := by
        refine List.filter_congr fun e' he' => ?_
        have hne : e'.id ≠ e.id := fun heq => hnodup.1 (heq ▸ List.mem_map_of_mem he')
        rw [hkeep, keys_add hmem]
        simp [hne]
      have hothers : m.others (e :: es) = e :: m.others es :=
        List.filter_cons_of_pos (by simpa using hmem)
      have hinsert : (m.keep e).elements.entries = m.elements.entries ++ [(e.id, e)] := by
        rw [hkeep]
        exact Table.insert_of_notMem hmem e
      rw [hsame] at hentries horder hdecisions
      rw [List.foldl_cons, hothers, hentries, horder, hdecisions, hinsert, hkeep]
      simp [add]

end MergeState

/-! ## The account -/

/-- The account of a scene made of some candidates and a scene before, given the elements that the
candidates have made, in order. -/
structure Reconciled.Accounts (r : Reconciled) (s : Scene) (cs : List Candidate)
    (made : List Element) : Prop where
  /-- The elements made come first, then the others in their old order. -/
  order : r.scene.order =
    made.map Element.id ++ s.order.filter fun id => id ∉ made.map Element.id
  order_nodup : r.scene.order.Nodup
  order_perm : r.scene.order.Perm r.scene.elements.keys
  keys : ∀ entry ∈ r.scene.elements.entries, entry.2.id = entry.1
  /-- No element is lost or doubled. -/
  once : ∀ id ∈ s.elements.keys, r.scene.order.count id = 1
  /-- Each candidate has made one element, and it is there. -/
  tells : List.Forall₂ Candidate.Tells cs made
  made_get? : ∀ e ∈ made, r.scene.elements.get? e.id = some e
  /-- What no candidate has taken over is as before. -/
  kept : ∀ id ∈ s.elements.keys, id ∉ made.map Element.id →
    r.scene.elements.get? id = s.elements.get? id
  decision_id : r.decisions.map Decision.id = r.scene.order
  decision_candidate? : r.decisions.map Decision.candidate? =
    (List.range cs.length).map some ++
      (s.order.filter fun id => id ∉ made.map Element.id).map fun _ => none
  /-- A candidate updates an element exactly when its id was in the scene. -/
  action : ∀ d ∈ r.decisions.take cs.length,
    d.reason.action = "UPDATE_EXISTING" ↔ d.id ∈ s.elements.keys
  selection : r.scene.selection = []

namespace Scene

theorem reconcile_of_ne_nil {σ : Type} (allocate : Allocator σ) (s : Scene) {cs : List Candidate}
    (hne : cs ≠ []) (state : σ) : (s.reconcile allocate cs state).1 =
      (s.orderedElements.foldl MergeState.keep
        (MergeState.start.steps allocate s 0 cs state).1).result := by
  cases cs with
  | nil => exact absurd rfl hne
  | cons c cs => rfl

section Account

variable {s : Scene} (hkeys : ∀ entry ∈ s.elements.entries, entry.2.id = entry.1)
  (horder : s.order.Perm s.elements.keys)

include hkeys horder

/-- What a merge comes to: the elements that the candidates have made, and behind them those of the
scene that have other ids. -/
theorem exists_reconcile_eq {σ : Type} {allocate : Allocator σ} (hfresh : allocate.Fresh)
    {cs : List Candidate} (hne : cs ≠ []) (state : σ) :
    ∃ made : List (Element × Decision), ∃ others : List Element,
      List.Forall₂ (fun p q => MergeState.Makes s p.1 p.2 q.1 q.2) cs.zipIdx made ∧
      others = s.orderedElements.filter (fun e => e.id ∉ (made.map Prod.fst).map Element.id) ∧
      (s.reconcile allocate cs state).1.scene.elements.entries =
        (made.map Prod.fst ++ others).map (fun e => (e.id, e)) ∧
      (s.reconcile allocate cs state).1.scene.order =
        (made.map Prod.fst ++ others).map Element.id ∧
      (s.reconcile allocate cs state).1.scene.selection = [] ∧
      (s.reconcile allocate cs state).1.decisions = made.map Prod.snd ++
        others.map fun e => ⟨e.id, .notInScript, none, none⟩ := by
  obtain ⟨made, hall, hentries, hids, hdecisions⟩ :=
    MergeState.exists_steps hfresh hkeys (MergeState.claims_start s) cs 0 state
  rw [reconcile_of_ne_nil allocate s hne state]
  set m := (MergeState.start.steps allocate s 0 cs state).1
  have hnodup : (s.orderedElements.map Element.id).Nodup := by
    rw [map_id_of_keys hkeys horder]
    exact horder.nodup_iff.2 s.elements.nodup
  obtain ⟨hentries', hids', hdecisions'⟩ := m.foldl_keep_eq hnodup
  have hmade : m.elements.keys = (made.map Prod.fst).map Element.id := by
    rw [Table.keys, Entries.keys, hentries, List.map_append, List.map_map]
    rfl
  refine ⟨made, m.others s.orderedElements, hall, by rw [MergeState.others, hmade], ?_, ?_, rfl, ?_⟩
  · rw [List.map_append]
    exact hentries'.trans (congrArg (· ++ _) hentries)
  · rw [List.map_append]
    exact hids'.trans (congrArg (· ++ _) hids)
  · exact hdecisions'.trans (congrArg (· ++ _) hdecisions)

/-- A merge loses nothing, doubles nothing and changes nothing but what candidates take over, and
its decisions account for every element. -/
theorem exists_accounts {σ : Type} {allocate : Allocator σ} (hfresh : allocate.Fresh)
    {cs : List Candidate} (hne : cs ≠ []) (state : σ) :
    ∃ made, (s.reconcile allocate cs state).1.Accounts s cs made := by
  obtain ⟨made, others, hall, hothers, hentries, horderr, hselection, hdecisions⟩ :=
    exists_reconcile_eq hkeys horder hfresh hne state
  set r := (s.reconcile allocate cs state).1
  have hotherids : others.map Element.id =
      s.order.filter fun id => id ∉ (made.map Prod.fst).map Element.id := by
    rw [hothers, ← map_id_of_keys hkeys horder, List.filter_map]
    rfl
  have hids : r.scene.order = (made.map Prod.fst).map Element.id ++
      s.order.filter fun id => id ∉ (made.map Prod.fst).map Element.id := by
    rw [horderr, List.map_append, hotherids]
  have hr : r.scene.ConsistsOf (made.map Prod.fst ++ others) := ⟨hentries, horderr⟩
  have hnodup : r.scene.order.Nodup := hr.keys_eq ▸ r.scene.elements.nodup
  have hlength : (made.map Prod.snd).length = cs.length := by
    rw [List.length_map, ← hall.length_eq, List.length_zipIdx]
  refine ⟨made.map Prod.fst, hids, hnodup, .of_eq hr.keys_eq.symm, hr.keys, fun id hid => ?_, ?_,
    fun e he => hr.get?_of_mem (List.mem_append_left _ he), fun id hid hnot => ?_, ?_, ?_,
    fun d hd => ?_, hselection⟩
  · refine List.count_eq_one_of_mem hnodup ?_
    rw [hids, List.mem_append, List.mem_filter, horder.mem_iff, decide_eq_true_iff]
    exact (Classical.em _).imp_right fun hnot => ⟨hid, hnot⟩
  · rw [← List.zipIdx_map_fst 0 cs, List.forall₂_map_left_iff, List.forall₂_map_right_iff]
    exact hall.imp fun p q hmakes => hmakes.tells
  · obtain ⟨e, he⟩ := Table.exists_get?_of_mem hid
    obtain rfl : e.id = id := hkeys _ (Table.mem_of_get? he)
    have hmem : e ∈ others := by
      rw [hothers, List.mem_filter, decide_eq_true_iff]
      exact ⟨List.mem_filterMap.2 ⟨e.id, horder.mem_iff.2 hid, he⟩, hnot⟩
    rw [he, hr.get?_of_mem (List.mem_append_right _ hmem)]
  · rw [hdecisions, horderr, List.map_append, List.map_append, List.map_map, List.map_map,
      List.map_map]
    refine congrArg (· ++ _) (List.map_congr_left fun q hq => ?_)
    obtain ⟨p, -, hmakes⟩ := exists_of_mem_right hall hq
    exact hmakes.id_eq
  · rw [hdecisions, List.map_append, List.map_map, List.map_map, ← hotherids, List.map_map]
    refine congrArg (· ++ _) ?_
    rw [List.range_eq_range', ← List.zipIdx_map_snd 0 cs, List.map_map]
    exact (map_eq_of_forall₂ (fun p q hmakes => hmakes.candidate?_eq.symm) hall).symm
  · rw [hdecisions, ← hlength, List.take_left'  rfl] at hd
    obtain ⟨q, hq, rfl⟩ := List.mem_map.1 hd
    obtain ⟨p, -, hmakes⟩ := exists_of_mem_right hall hq
    exact hmakes.action_eq_iff

end Account

/-- A rectangle with a name. -/
def panel : Element := { Element.ofType .rect "a" 0 0 with name := "Panel" }

/-- A panel, and a title in front of it. -/
def panelAndTitle : Scene :=
  (empty.add panel).add { Element.ofType .text "b" 0 0 with name := "Title" }

/-- A rectangle in a script, with the id and the name on its marker. -/
def boxCandidate (id? name? : Option String) (line : ℤ) : Candidate :=
  ⟨"rect", 0, 0, 1, 1, Table.empty, id?, name?, line⟩

/-- One candidate takes the panel over by its name, the next comes too late for it, and the title is
kept. -/
theorem exists_accounts_panelAndTitle : ∃ made,
    (panelAndTitle.reconcile (IdSource.allocate 6)
      [boxCandidate none (some "Panel") 5, boxCandidate (some "a") none 9]
      (IdSource.ofGiven [])).1.Accounts panelAndTitle
        [boxCandidate none (some "Panel") 5, boxCandidate (some "a") none 9] made :=
  exists_accounts (by decide +kernel) (by decide +kernel) (IdSource.fresh_allocate 6) (by simp) _

end Scene

end SceneScript
