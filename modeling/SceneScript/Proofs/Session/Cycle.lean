import SceneScript.Proofs.Merge.Identity
import SceneScript.Proofs.Merge.Sound
import SceneScript.Proofs.Script.Settle
import SceneScript.Proofs.Session.Run

/-!
# Scripts taken in again

A scene is written, and its script is taken in: the scene is found again, element by element. A
session that holds the scene updates every element by its id and changes nothing that the script
tells; an empty session adopts all ids in their order. Either way the script of the scene is the
same text as before, if the stored numbers are whole and of moderate size.

Main statement: `Session.cycle`.
-/

namespace SceneScript

open Text

/-! ## Marked candidates -/

namespace MergeState

variable {σ : Type} {allocate : Allocator σ} {s : Scene}

/-- When every candidate makes an element under its own id, for one reason, so do all of them. -/
theorem steps_of_marked {f : Element → Candidate → Element} {reason : Reason}
    {R : Element → Candidate → Prop} (hid : ∀ e c, (f e c).id = e.id)
    (hstep : ∀ (m : MergeState) (index : ℕ) (e : Element) (c : Candidate) (state : σ), R e c →
      e.id ∉ m.claimed → e.id ∉ m.elements.keys → ∃ claimed,
        (∀ id ∈ claimed, id = e.id ∨ id ∈ m.claimed) ∧ m.step allocate s index c state =
          (({ m with claimed := claimed } : MergeState).add (f e c)
            ⟨e.id, reason, some index, some c.line⟩, state))
    {es : List Element} {cs : List Candidate} (hall : List.Forall₂ R es cs)
    (hnodup : (es.map Element.id).Nodup) {m : MergeState} (hclaimed : ∀ e ∈ es, e.id ∉ m.claimed)
    (hkeys : ∀ e ∈ es, e.id ∉ m.elements.keys) (index : ℕ) (state : σ) :
    ∃ m' es', m.steps allocate s index cs state = (m', state) ∧
      List.Forall₂ (fun e e' => ∃ c, R e c ∧ e' = f e c) es es' ∧
      m'.elements.entries = m.elements.entries ++ es'.map (fun e => (e.id, e)) ∧
      m'.order = m.order ++ es'.map Element.id ∧
      m'.decisions.map (fun d => (d.id, d.reason)) =
        m.decisions.map (fun d => (d.id, d.reason)) ++ es'.map (fun e => (e.id, reason)) := by
  induction hall generalizing m index with
  | nil => exact ⟨m, [], rfl, .nil, by simp, by simp, by simp⟩
  | @cons e c es cs hr hall ih =>
    rw [List.map_cons, List.nodup_cons] at hnodup
    obtain ⟨claimed, hsub, heq⟩ :=
      hstep m index e c state hr (hclaimed e List.mem_cons_self) (hkeys e List.mem_cons_self)
    have hne : ∀ e' ∈ es, e'.id ≠ e.id := fun e' he' heq =>
      hnodup.1 (heq ▸ List.mem_map_of_mem (f := Element.id) he')
    have hnew : (f e c).id ∉ ({ m with claimed := claimed } : MergeState).elements.keys :=
      (hid e c).symm ▸ hkeys e List.mem_cons_self
    have hclaimed' : ∀ e' ∈ es, e'.id ∉ claimed := by
      intro e' he' hmem
      rcases hsub _ hmem with heq | hmem
      · exact hne e' he' heq
      · exact hclaimed e' (List.mem_cons_of_mem _ he') hmem
    have hkeys' : ∀ e' ∈ es, e'.id ∉ (({ m with claimed := claimed } : MergeState).add (f e c)
        ⟨e.id, reason, some index, some c.line⟩).elements.keys := by
      intro e' he' hmem
      rcases eq_or_mem_of_mem_add hnew _ hmem with hmem | heq
      · exact hkeys e' (List.mem_cons_of_mem _ he') hmem
      · exact hne e' he' (heq.trans (hid e c))
    obtain ⟨m', es', hsteps, hes', hentries, horder, hdecisions⟩ :=
      ih hnodup.2 hclaimed' hkeys' (index + 1)
    refine ⟨m', f e c :: es', ?_, .cons ⟨c, hr, rfl⟩ hes', ?_, ?_, ?_⟩
    · rw [steps, heq]
      exact hsteps
    · rw [hentries]
      have hadd : ((({ m with claimed := claimed } : MergeState).add (f e c)
          ⟨e.id, reason, some index, some c.line⟩).elements).entries =
          m.elements.entries ++ [((f e c).id, f e c)] := Table.insert_of_notMem hnew _
      rw [hadd, List.map_cons, List.append_assoc, List.singleton_append]
    · rw [horder, List.map_cons]
      exact (List.append_assoc m.order [_] _)
    · rw [hdecisions, List.map_cons, hid]
      simp [add]

theorem foldl_keep_of_mem {m : MergeState} {es : List Element}
    (h : ∀ e ∈ es, e.id ∈ m.elements.keys) : es.foldl keep m = m := by
  induction es with
  | nil => rfl
  | cons e es ih =>
    have hkeep : m.keep e = m := if_pos (Table.contains_iff.2 (h e List.mem_cons_self))
    rw [List.foldl_cons, hkeep]
    exact ih fun e' he' => h e' (List.mem_cons_of_mem _ he')

end MergeState

theorem Element.DescribedBy.markedId?_eq {e : Element} (he : e.Readable) {c : Candidate}
    (hc : e.DescribedBy c) : c.markedId? = some e.id := by
  have hne : e.id.isEmpty = false := by
    rw [Bool.eq_false_iff, Ne, String.isEmpty_iff]
    exact fun hempty => he.id_ne (by rw [hempty]; rfl)
  rw [Candidate.markedId?, hc.id?]
  simp [hne]

/-! ## Scenes told alike -/

namespace Scene

/-- That a scene is what a script tells of another: it has the same elements in the same order, each
told as before. -/
structure ToldAs (s s' : Scene) : Prop where
  order : s'.order = s.order
  entries : s'.elements.entries = s'.orderedElements.map fun e => (e.id, e)
  elements : List.Forall₂ Element.ToldAs s.orderedElements s'.orderedElements

namespace ToldAs

variable {s s' : Scene} (ht : s.ToldAs s') (h : s.Readable)

include ht

theorem handlers_eq : s'.handlers = s.handlers := by
  rw [handlers, handlers, handlersOf, handlersOf]
  refine (foldl_eq_of_forall₂ (fun names e e' he => ?_) ht.elements []).symm
  rw [he.type, he.handler]

theorem keys : ∀ entry ∈ s'.elements.entries, entry.2.id = entry.1 := by
  intro entry hentry
  rw [ht.entries] at hentry
  obtain ⟨e, -, rfl⟩ := List.mem_map.1 hentry
  rfl

include h

theorem keys_eq : s'.elements.keys = s.order := by
  rw [Table.keys, Entries.keys, ht.entries, List.map_map, ← h.map_id_orderedElements]
  exact (map_eq_of_forall₂ (fun e e' he => he.id.symm) ht.elements).symm

variable (hwhole : ∀ entry ∈ s.elements.entries, entry.2.Whole)

include hwhole

/-- The blocks of the scene are the same. -/
theorem blocksOf_eq (indent : List Char) :
    blocksOf indent s'.orderedElements = blocksOf indent s.orderedElements := by
  have hall : List.Forall₂ (fun e' e : Element => e'.block indent = e.block indent)
      s'.orderedElements s.orderedElements := by
    refine ((forall₂_mem_left ht.elements).imp fun e e' he => ?_).flip
    exact he.2.block_eq (h.readable_of_mem he.1) (of_mem_orderedElements hwhole he.1) indent
  rw [blocksOf, blocksOf, mapM_congr_of_forall₂ hall]

/-- So is its script. -/
theorem script_eq : s'.script = s.script := by
  rw [script, script, scriptLines, scriptLines, ht.blocksOf_eq h hwhole, ht.handlers_eq]

/-- The script is up to date already. -/
theorem patch_script {text : List Char} (htext : s.script = .ok text) :
    s'.patch text = .ok text := by
  obtain ⟨ds, hds⟩ := h.exists_drawings
  have hcode : s.script = .ok (Drawing.code ds s.handlers) := s.script_eq hds
  obtain rfl := Except.ok.inj (hcode.symm.trans htext)
  have hcallee := h.isCallee_of_mem_handlers
  by_cases hne : ds = []
  · subst hne
    rw [s'.patch_nil hcallee, ht.script_eq h hwhole, htext]
  · have hids : ds.map (fun d => d.element.id) = s'.order := by
      rw [ht.order, ← h.map_id_orderedElements, ← hds, List.map_map]
      rfl
    have hpresent : blocksOf (indentStep ++ indentStep)
        ((ds.map fun d => d.element.id).filterMap s'.elements.get?) =
          .ok (ds.flatMap fun d => d.lines (indentStep ++ indentStep)) := by
      rw [hids]
      exact (ht.blocksOf_eq h hwhole _).trans (hds ▸ Drawing.blocksOf_eq _ ds)
    -- every element has its block already
    have habsent : blocksOf (indentStep ++ indentStep)
        (s'.orderedElements.filter fun e => !(ds.map fun d => d.element.id).contains e.id) =
          .ok [] := by
      have hnone : (s'.orderedElements.filter fun e =>
          !(ds.map fun d => d.element.id).contains e.id) = [] := by
        rw [hids, List.filter_eq_nil_iff]
        intro e he
        obtain ⟨key, hkey, hget⟩ := mem_orderedElements.1 he
        obtain rfl : e.id = key := ht.keys _ (Table.mem_of_get? hget)
        simp [hkey]
      rw [hnone]
      rfl
    rw [patch_written ht.keys hne (hids ▸ ht.order ▸ h.nodup_order) hcallee hpresent habsent]
    have hdeclared : ∀ blocks,
        undeclared (writtenLines blocks s.handlers ++ [[]]) s'.handlers = [] := by
      intro blocks
      rw [ht.handlers_eq, undeclared, List.filter_eq_nil_iff]
      intro name hname
      simp [any_declaresFunction_of_mem (hcallee name hname) hname blocks]
    rw [hdeclared, List.append_nil, List.append_nil]
    rfl

end ToldAs

/-! ## Reconciling with the own script -/

namespace Readable

variable {s : Scene} (h : s.Readable)

include h

theorem nodup_ids : (s.orderedElements.map Element.id).Nodup := by
  rw [h.map_id_orderedElements]
  exact h.nodup_order

omit h in
/-- Scenes without elements are told alike. -/
theorem toldAs_of_order_eq_nil {s₀ : Scene} (h₀ : s₀.Readable) (hempty : s.order = [])
    (hempty₀ : s₀.order = []) : s.ToldAs s₀ := by
  have hnone : s.orderedElements = [] := by rw [orderedElements, hempty, List.filterMap_nil]
  have hnone₀ : s₀.orderedElements = [] := by rw [orderedElements, hempty₀, List.filterMap_nil]
  have hperm := h₀.order
  rw [hempty₀, List.nil_perm] at hperm
  refine ⟨hempty₀.trans hempty.symm, ?_, ?_⟩
  · rw [hnone₀]
    exact List.map_eq_nil_iff.1 hperm
  · rw [hnone, hnone₀]
    exact .nil

/-- When the candidates of a script make the elements of its scene under their own ids, in a scene
that has no others, the result is told as the scene of the script. -/
theorem toldAs_reconcile {σ : Type} {allocate : Allocator σ} {s₀ : Scene} (h₀ : s₀.Readable)
    (hsub : s₀.order ⊆ s.order) {cs : List Candidate}
    (hcs : List.Forall₂ Element.DescribedBy s.orderedElements cs)
    {f : Element → Candidate → Element} {reason : Reason} (hid : ∀ e c, (f e c).id = e.id)
    (htold : ∀ (e : Element) (c : Candidate), e.Readable → e.DescribedBy c → e.ToldAs (f e c))
    (hstep : ∀ (m : MergeState) (index : ℕ) (e : Element) (c : Candidate) (state : σ),
      e ∈ s.orderedElements ∧ e.DescribedBy c → e.id ∉ m.claimed → e.id ∉ m.elements.keys →
      ∃ claimed, (∀ id ∈ claimed, id = e.id ∨ id ∈ m.claimed) ∧ m.step allocate s₀ index c state =
        (({ m with claimed := claimed } : MergeState).add (f e c)
          ⟨e.id, reason, some index, some c.line⟩, state)) (state : σ) :
    s.ToldAs (s₀.reconcile allocate cs state).1.scene ∧
      (s₀.reconcile allocate cs state).1.decisions.map (fun d => (d.id, d.reason)) =
        s.order.map (·, reason) ∧
      (s.order ≠ [] → (s₀.reconcile allocate cs state).1.scene.selection = []) := by
  obtain ⟨m, es', hsteps, hall, hentries, horder, hdecisions⟩ :=
    MergeState.steps_of_marked (m := .start) hid hstep
      (forall₂_mem_left hcs) h.nodup_ids (by simp [MergeState.start])
      (by simp [MergeState.start, Table.empty, Table.keys, Entries.keys]) 0 state
  have hids : es'.map Element.id = s.order := by
    rw [← h.map_id_orderedElements]
    refine (map_eq_of_forall₂ (fun e e' he => ?_) hall).symm
    obtain ⟨c, -, rfl⟩ := he
    exact (hid e c).symm
  have hreasons : es'.map (fun e => (e.id, reason)) = s.order.map (·, reason) := by
    rw [← hids, List.map_map]
    rfl
  rw [MergeState.start, Table.empty, List.nil_append] at hentries
  rw [MergeState.start, List.nil_append, hids] at horder
  rw [MergeState.start, List.map_nil, List.nil_append, hreasons] at hdecisions
  cases cs with
  | nil =>
    have hempty : s.order = [] := by
      rw [← h.map_id_orderedElements, List.forall₂_nil_right_iff.1 hcs, List.map_nil]
    have hempty₀ : s₀.order = [] := List.subset_nil.1 (hempty ▸ hsub)
    refine ⟨h₀.toldAs_of_order_eq_nil hempty hempty₀, ?_, fun hne => absurd hempty hne⟩
    rw [hempty]
    rfl
  | cons c cs' =>
    have hkeep : s₀.orderedElements.foldl MergeState.keep m = m := by
      refine MergeState.foldl_keep_of_mem fun e he => ?_
      rw [Table.keys, Entries.keys, hentries, List.map_map]
      obtain ⟨key, hkey, hget⟩ := mem_orderedElements.1 he
      obtain rfl : e.id = key := h₀.id_of_get? hget
      exact (congrArg (e.id ∈ ·) hids).mpr (hsub hkey)
    have hresult : (s₀.reconcile allocate (c :: cs') state).1 = m.result := by
      rw [reconcile, hsteps]
      · exact congrArg MergeState.result hkeep
      · simp
    have hordered : m.result.scene.orderedElements = es' :=
      ConsistsOf.orderedElements_eq ⟨hentries, horder.trans hids.symm⟩
    rw [hresult]
    refine ⟨⟨horder, hordered.symm ▸ hentries, hordered.symm ▸ hall.imp fun e e' he => ?_⟩,
      hdecisions, fun _ => rfl⟩
    obtain ⟨c, hr, rfl⟩ := he
    exact htold e c (h.readable_of_mem hr.1) hr.2

/-- A scene is found again in its own script by its ids. -/
theorem toldAs_reconcile_self {σ : Type} (allocate : Allocator σ) {cs : List Candidate}
    (hcs : List.Forall₂ Element.DescribedBy s.orderedElements cs) (state : σ) :
    s.ToldAs (s.reconcile allocate cs state).1.scene ∧
      (s.reconcile allocate cs state).1.decisions.map (fun d => (d.id, d.reason)) =
        s.order.map (·, .idMatch) ∧
      (s.order ≠ [] → (s.reconcile allocate cs state).1.scene.selection = []) := by
  refine h.toldAs_reconcile h (List.Subset.refl _) hcs (f := fun e c => c.update e)
    (fun _ _ => rfl) (fun e c he hc => hc.toldAs_update he) (fun m index e c state hr hnot _ => ?_)
    state
  have hmarked := Element.DescribedBy.markedId?_eq (h.readable_of_mem hr.1) hr.2
  exact ⟨e.id :: m.claimed, by simp,
    m.step_of_marked index state hmarked (h.get?_of_mem hr.1) hnot⟩

/-- An empty scene adopts the ids of a script. -/
theorem toldAs_reconcile_empty {σ : Type} (allocate : Allocator σ) {cs : List Candidate}
    (hcs : List.Forall₂ Element.DescribedBy s.orderedElements cs) (state : σ) :
    s.ToldAs (empty.reconcile allocate cs state).1.scene ∧
      (empty.reconcile allocate cs state).1.decisions.map (fun d => (d.id, d.reason)) =
        s.order.map (·, .metadataId) := by
  refine (h.toldAs_reconcile readable_empty (List.nil_subset _) hcs
    (f := fun e c => c.create e.id) (fun _ _ => rfl) (fun e c he hc => hc.toldAs_create he)
    (fun m index e c state hr _ hnew => ?_) state).imp_right And.left
  refine ⟨m.claimed, fun id hid => .inr hid, ?_⟩
  have hmarked := Element.DescribedBy.markedId?_eq (h.readable_of_mem hr.1) hr.2
  have hmatch : c.match? empty m.claimed = none := by
    have hnone : c.nameMatch? empty m.claimed = none := by
      rw [Candidate.nameMatch?]
      cases c.name? <;> rfl
    rw [Candidate.match?, Candidate.idMatch?, hmarked, hnone, Option.bind_some]
    split <;> rfl
  have hfree : (m.inUse empty).contains e.id = false := by
    simpa [MergeState.inUse, empty, Table.empty, Table.keys, Entries.keys] using hnew
  have hid : m.newId allocate empty c state = ((e.id, .metadataId), state) := by
    rw [MergeState.newId, hmarked, Option.filter_some, hfree]
    rfl
  rw [MergeState.step, hmatch, hid]

end Readable

/-- A slider, and a label behind it. -/
def sliderAndLabel : Scene :=
  (empty.add (Element.ofType .slider "s1" 10 20)).add (Element.ofType .text "t2" 0 (.int (-5)))

theorem readable_sliderAndLabel : sliderAndLabel.Readable :=
  (readable_empty.add (Element.readable_ofType rfl (by decide) (by decide) (by decide +kernel)
    (by decide +kernel)) (by decide)).add (Element.readable_ofType rfl (by decide) (by decide)
      (by decide +kernel) (by decide +kernel)) (by decide)

end Scene

/-! ## Cycles of a session -/

/-- That an element has the identity of another, and its place and size in whole numbers. -/
structure Element.KeptAs (e e' : Element) : Prop where
  id : e'.id = e.id
  type : e'.type = e.type
  name : e'.name = e.name
  x : e.x.whole?.map Num.int = some e'.x
  y : e.y.whole?.map Num.int = some e'.y
  w : e.w.whole?.map Num.int = some e'.w
  h : e.h.whole?.map Num.int = some e'.h

theorem Element.ToldAs.keptAs {e e' : Element} (ht : e.ToldAs e') (hwhole : e.Whole) :
    e.KeptAs e' :=
  ⟨ht.id, ht.type, ht.name, (hwhole.x.rounded ht.x).1, (hwhole.y.rounded ht.y).1,
    (hwhole.w.rounded ht.w).1, (hwhole.h.rounded ht.h).1⟩

namespace Session

variable {σ : Type}

/-- A script that can be read is taken in. -/
theorem takeIn_of_ok {s : Session σ} {text : List Char} {cs : List Candidate}
    (h : candidatesOf text = .ok cs) :
    s.takeIn text = (.ok (.decided (s.scene.reconcile s.allocator cs s.ids).1.decisions),
      { s with
        scene := (s.scene.reconcile s.allocator cs s.ids).1.scene
        code := text
        decisions := (s.scene.reconcile s.allocator cs s.ids).1.decisions
        ids := (s.scene.reconcile s.allocator cs s.ids).2 }) := by
  rw [takeIn, h]

/-- A scene whose numbers are whole and of moderate size is a fixed point of writing it and taking
its script in. A session that holds it finds every element by its id, and nothing that can be seen
in the scene or in the script changes but the selection. An empty session adopts all ids, in order,
and would write the same script. -/
theorem cycle {scene : Scene} (h : scene.Readable)
    (hwhole : ∀ entry ∈ scene.elements.entries, entry.2.Whole) :
    ∃ text, scene.script = .ok text ∧
      (∀ s : Session σ, s.scene = scene → s.code = text →
        let r := s.step (.ingest text true)
        r.1 = .ok (.decided r.2.decisions) ∧
        r.2.decisions.map (fun d => (d.id, d.reason)) = scene.order.map (·, .idMatch) ∧
        r.2.scene.order = scene.order ∧ r.2.scene.elements.keys = scene.order ∧
        List.Forall₂ Element.KeptAs scene.orderedElements r.2.scene.orderedElements ∧
        (scene.order ≠ [] → r.2.scene.selection = []) ∧ r.2.code = text) ∧
      ∀ s : Session σ, s.scene = .empty →
        let r := s.step (.ingest text false)
        r.1 = .ok (.decided r.2.decisions) ∧
        r.2.decisions.map (fun d => (d.id, d.reason)) = scene.order.map (·, .metadataId) ∧
        r.2.scene.order = scene.order ∧ r.2.scene.elements.keys = scene.order ∧
        r.2.scene.script = .ok text := by
  obtain ⟨text, cs, htext, hcs, hall⟩ := h.exists_described
  refine ⟨text, htext, fun s hscene hcode => ?_, fun s hscene => ?_⟩
  · obtain ⟨htold, hdecisions, hselection⟩ := h.toldAs_reconcile_self s.allocator hall s.ids
    have hpatch := htold.patch_script h hwhole htext
    have hstep : s.step (.ingest text true) = thenRegenerate (s.takeIn text) := rfl
    rw [hstep, takeIn_of_ok hcs, hscene, thenRegenerate, regenerate]
    dsimp only
    rw [hpatch]
    refine ⟨rfl, hdecisions, htold.order, htold.keys_eq h, ?_, hselection, rfl⟩
    exact (forall₂_mem_left htold.elements).imp fun e e' he =>
      he.2.keptAs (Scene.of_mem_orderedElements hwhole he.1)
  · obtain ⟨htold, hdecisions⟩ := h.toldAs_reconcile_empty s.allocator hall s.ids
    have hstep : s.step (.ingest text false) = s.takeIn text := rfl
    rw [hstep, takeIn_of_ok hcs, hscene]
    exact ⟨rfl, hdecisions, htold.order, htold.keys_eq h, (htold.script_eq h hwhole).trans htext⟩

/-- A slider and a label. -/
theorem cycle_slider_label :
    ∃ text, Scene.sliderAndLabel.script = .ok text ∧
      (∀ s : Session ℕ, s.scene = .sliderAndLabel → s.code = text →
        let r := s.step (.ingest text true)
        r.1 = .ok (.decided r.2.decisions) ∧
        r.2.decisions.map (fun d => (d.id, d.reason)) = [("s1", .idMatch), ("t2", .idMatch)] ∧
        r.2.scene.order = ["s1", "t2"] ∧ r.2.scene.elements.keys = ["s1", "t2"] ∧
        List.Forall₂ Element.KeptAs Scene.sliderAndLabel.orderedElements
          r.2.scene.orderedElements ∧
        (["s1", "t2"] ≠ [] → r.2.scene.selection = []) ∧ r.2.code = text) ∧
      ∀ s : Session ℕ, s.scene = .empty →
        let r := s.step (.ingest text false)
        r.1 = .ok (.decided r.2.decisions) ∧
        r.2.decisions.map (fun d => (d.id, d.reason)) =
          [("s1", .metadataId), ("t2", .metadataId)] ∧
        r.2.scene.order = ["s1", "t2"] ∧ r.2.scene.elements.keys = ["s1", "t2"] ∧
        r.2.scene.script = .ok text :=
  cycle Scene.readable_sliderAndLabel fun entry hentry => by
    rcases List.mem_pair.1 (show entry ∈ [_, _] from hentry) with rfl | rfl
    · exact Element.whole_ofType (by decide) (by decide) (by decide +kernel)
    · exact Element.whole_ofType (by decide) (by decide) (by decide +kernel)

end Session

end SceneScript
