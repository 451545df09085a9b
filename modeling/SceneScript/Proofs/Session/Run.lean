import SceneScript.Proofs.Script.Patch
import SceneScript.Session.Basic

/-!
# Runs of a session

A session that starts empty and only ever changes its scene and patches its script has the script
that its scene would be given as a whole, up to the stubs: those of handlers that are gone stay.
The invariant (`Session.Tracks`) ties the blocks of the script to the order of the scene. What is
left of the ids in the script comes first and in their order, ids that the script does not have come
behind (`Grows`); an id that has been dropped never comes back, since no id is handed out twice.

Main statements:

* `Session.Tracks.step`: every step but taking in a script keeps the invariant.
* `Session.agreesWith_run`: after such a run, patching gives a script that agrees with that of the
  scene.
-/

namespace SceneScript

open Lua Text

/-! ## Ids handed out -/

namespace Allocator

variable {σ : Type} (a : Allocator σ)

/-- The ids that an allocator hands out for some requests, one after the other. -/
def handOut : List (List String) → σ → List String
  | [], _ => []
  | used :: requests, state => (a used state).1 :: handOut requests (a used state).2

/-- Whatever is asked for, no id is handed out twice. -/
def NeverRepeats (state : σ) : Prop := ∀ requests, (a.handOut requests state).Nodup

/-- Whatever is asked for, no id is handed out twice, and none of some ids handed out before. -/
def NeverRepeatsAfter (issued : List String) (state : σ) : Prop :=
  ∀ requests, (issued ++ a.handOut requests state).Nodup

variable {a} {issued : List String} {state : σ}

/-- The id handed out next is new, and goes to those handed out before. -/
theorem NeverRepeatsAfter.next (h : a.NeverRepeatsAfter issued state) (used : List String) :
    (a used state).1 ∉ issued ∧
      a.NeverRepeatsAfter (issued ++ [(a used state).1]) (a used state).2 := by
  refine ⟨fun hmem => ?_, fun requests => ?_⟩
  · exact (List.nodup_append.1 (h [used])).2.2 _ hmem _ List.mem_cons_self rfl
  · rw [List.append_assoc]
    exact h (used :: requests)

/-- The allocator that hands out longer and longer ids. -/
def lengthening : Allocator ℕ := fun _ n => (String.ofList (List.replicate (n + 1) 'a'), n + 1)

theorem length_of_mem_lengthening {requests : List (List String)} {n : ℕ} {id : String}
    (h : id ∈ lengthening.handOut requests n) : n < id.length := by
  induction requests generalizing n with
  | nil => simp [handOut] at h
  | cons used requests ih =>
    rcases List.mem_cons.1 h with rfl | h
    · simp [lengthening]
    · have := ih (n := n + 1) h
      omega

theorem neverRepeats_lengthening (n : ℕ) : lengthening.NeverRepeats n := by
  intro requests
  induction requests generalizing n with
  | nil => exact List.nodup_nil
  | cons used requests ih =>
    refine List.nodup_cons.2 ⟨fun hmem => ?_, ih (n + 1)⟩
    have := length_of_mem_lengthening (n := n + 1) hmem
    simp [lengthening] at this

end Allocator

/-! ## Growing orders -/

/-- That an order is what is left of an old one, with others behind. -/
def Grows (old order : List String) : Prop :=
  order = old.filter order.contains ++ order.filter fun id => !old.contains id

namespace Grows

theorem refl (order : List String) : Grows order order := by
  have hall : order.filter order.contains = order := by
    rw [List.filter_eq_self]
    simp
  have hnone : order.filter (fun id => !order.contains id) = [] := by
    rw [List.filter_eq_nil_iff]
    simp
  rw [Grows, hall, hnone, List.append_nil]

variable {old order : List String} (h : Grows old order)

include h

/-- Leaving some ids out keeps what is left in its order. -/
theorem filter (p : String → Bool) : Grows old (order.filter p) := by
  have hold : old.filter (order.filter p).contains = (old.filter order.contains).filter p := by
    rw [List.filter_filter]
    refine List.filter_congr fun id _ => ?_
    rw [Bool.eq_iff_iff]
    simp [and_comm]
  have hothers : (order.filter p).filter (fun id => !old.contains id) =
      (order.filter fun id => !old.contains id).filter p := List.filter_comm ..
  rw [Grows, hold, hothers, ← List.filter_append]
  exact congrArg (List.filter p) h

/-- An id that is new goes behind. -/
theorem append_singleton {id : String} (hid : id ∉ old) : Grows old (order ++ [id]) := by
  have hold : old.filter (order ++ [id]).contains = old.filter order.contains := by
    refine List.filter_congr fun other hother => ?_
    have hne : other ≠ id := fun he => hid (he ▸ hother)
    rw [Bool.eq_iff_iff]
    simp [hne]
  have hothers : (order ++ [id]).filter (fun id => !old.contains id) =
      order.filter (fun id => !old.contains id) ++ [id] := by
    simp [hid]
  rw [Grows, hold, hothers, ← List.append_assoc]
  exact congrArg (· ++ [id]) h

end Grows

/-! ## Scripts that follow a scene -/

namespace Scene

/-- That a script of some drawings is one of a scene: its blocks are those of the elements, its
stubs are distinct, and it declares all handlers. -/
structure Written (s : Scene) (ds : List Drawing) (names : List (List Char)) : Prop where
  elements : ds.map Drawing.element = s.orderedElements
  callee : ∀ name ∈ names, isCallee name = true
  nodup : names.Nodup
  declares : ∀ name ∈ s.handlers,
    (Drawing.scriptLines ds names ++ [[]]).any (declaresFunction name) = true

/-- A script that a scene was given, or one of a scene from which it comes by leaving elements out
and adding new ones, ids being taken from those that were handed out. -/
inductive Follows (s : Scene) (issued : List String) : List Char → Prop where
  /-- The script of a session that was given none. -/
  | placeholder : Follows s issued EditorConfig.default.placeholder.toList
  /-- A script written for some drawings. -/
  | code (ds : List Drawing) (names : List (List Char))
      (callee : ∀ name ∈ names, isCallee name = true) (nodup : names.Nodup)
      (ids_nodup : (ds.map fun d => d.element.id).Nodup)
      (ids_issued : ∀ d ∈ ds, d.element.id ∈ issued)
      (order : Grows (ds.map fun d => d.element.id) s.order) :
      Follows s issued (Drawing.code ds names)

theorem Follows.imp {s s' : Scene} {issued issued' : List String} {code : List Char}
    (h : s.Follows issued code) (hissued : ∀ id ∈ issued, id ∈ issued')
    (horder : ∀ old, (∀ id ∈ old, id ∈ issued) → Grows old s.order → Grows old s'.order) :
    s'.Follows issued' code := by
  cases h with
  | placeholder => exact .placeholder
  | code ds names callee nodup ids_nodup ids_issued order =>
    refine .code ds names callee nodup ids_nodup (fun d hd => hissued _ (ids_issued d hd)) ?_
    refine horder _ (fun id hid => ?_) order
    obtain ⟨d, hd, rfl⟩ := List.mem_map.1 hid
    exact ids_issued d hd

/-! ## Patching a script that follows -/

theorem segments_placeholder :
    segments (Text.lines EditorConfig.default.placeholder.toList) =
      .ok ([EditorConfig.default.placeholder.toList].map .line) := by
  have hlines : Text.lines EditorConfig.default.placeholder.toList =
      [EditorConfig.default.placeholder.toList] := by
    decide +kernel
  have hread : Marker.read EditorConfig.default.placeholder.toList = .ok none :=
    read_of_afterWord? (by decide +kernel)
  rw [hlines, segments_line hread rfl, segments]
  rfl

namespace Readable

variable {s : Scene} (h : s.Readable)

include h

/-- The whole script of a scene is one of it. -/
theorem written_handlers {ds : List Drawing} (hds : ds.map Drawing.element = s.orderedElements) :
    s.Written ds s.handlers where
  elements := hds
  callee := h.isCallee_of_mem_handlers
  nodup := (handlersOf_spec s.orderedElements).2
  declares _ hname := any_declaresFunction_of_mem (h.isCallee_of_mem_handlers _ hname) hname _

/-- The elements of the ids left of an old order, and then the others, are all elements. -/
theorem orderedElements_eq_of_grows {old : List String} (hgrows : Grows old s.order) :
    old.filterMap s.elements.get? ++ (s.orderedElements.filter fun e => !old.contains e.id) =
      s.orderedElements := by
  have hold : (old.filter s.order.contains).filterMap s.elements.get? =
      old.filterMap s.elements.get? := by
    rw [List.filterMap_filter]
    refine List.filterMap_congr fun id _ => ?_
    split_ifs with hid
    · rfl
    · symm
      rw [Table.get?_eq_none_iff, ← h.order.mem_iff]
      simpa using hid
  have hothers : (s.order.filter fun id => !old.contains id).filterMap s.elements.get? =
      s.orderedElements.filter fun e => !old.contains e.id := by
    rw [orderedElements, List.filter_filterMap, List.filterMap_filter]
    refine List.filterMap_congr fun id _ => ?_
    cases hget : s.elements.get? id with
    | none => simp
    | some e => simp [h.id_of_get? hget, Option.filter]
  rw [← hold, ← hothers, ← List.filterMap_append, ← hgrows]
  rfl

/-- Patching a script that follows a scene gives one of the scene. -/
theorem exists_patch {issued : List String} {code : List Char} (hcode : s.Follows issued code) :
    ∃ ds names, s.patch code = .ok (Drawing.code ds names) ∧ s.Written ds names := by
  obtain ⟨ds', hds'⟩ := h.exists_drawings
  have hwhole : s.script = .ok (Drawing.code ds' s.handlers) := s.script_eq hds'
  cases hcode with
  | placeholder =>
    refine ⟨ds', s.handlers, ?_, h.written_handlers hds'⟩
    rw [s.patch_unwritten (by decide +kernel) segments_placeholder]
    exact hwhole
  | code ds names callee nodup ids_nodup ids_issued order =>
    by_cases hne : ds = []
    · subst hne
      exact ⟨ds', s.handlers, (s.patch_nil callee).trans hwhole, h.written_handlers hds'⟩
    · have hsplit := h.orderedElements_eq_of_grows order
      rw [← hds'] at hsplit
      obtain ⟨present, absent, rfl, hpresent, habsent⟩ := List.map_eq_append_iff.1 hsplit.symm
      have hblocks := Drawing.blocksOf_eq (indentStep ++ indentStep)
      let written := Drawing.scriptLines (present ++ absent) names ++ [[]]
      refine ⟨present ++ absent, names ++ undeclared written s.handlers, ?_, hds', ?_, ?_,
        fun name hname => ?_⟩
      · rw [patch_written h.keys hne ids_nodup callee (hpresent ▸ hblocks present)
          (hds' ▸ habsent ▸ hblocks absent), ← List.flatMap_append]
        rfl
      · intro name hname
        rcases List.mem_append.1 hname with hname | hname
        · exact callee name hname
        · exact h.isCallee_of_mem_handlers name (List.mem_of_mem_filter hname)
      · exact nodup_append_undeclared h.isCallee_of_mem_handlers nodup
          (handlersOf_spec s.orderedElements).2
      · exact any_declaresFunction_append_undeclared h.isCallee_of_mem_handlers hname

end Readable

/-- A script of a scene follows it. -/
theorem Written.follows {s : Scene} (h : s.Readable) {ds : List Drawing}
    {names : List (List Char)} (hw : s.Written ds names) {issued : List String}
    (hissued : ∀ id ∈ s.order, id ∈ issued) : s.Follows issued (Drawing.code ds names) := by
  have hids : ds.map (fun d => d.element.id) = s.order := by
    rw [← h.map_id_orderedElements, ← hw.elements, List.map_map]
    rfl
  refine .code ds names hw.callee hw.nodup (hids ▸ h.nodup_order) (fun d hd => hissued _ ?_)
    (hids ▸ .refl s.order)
  rw [← hids]
  exact List.mem_map_of_mem (f := fun d : Drawing => d.element.id) hd

/-! ## Agreeing with the whole script -/

/-- The line before the stubs. -/
def stubsHeader : Line := "-- Event handler stubs (implement)".toList

/-- That a script agrees with the whole script of a scene: up to the line before the stubs they have
the same lines, behind it are stubs of the form `function name() end`, each once, and all handlers
of the scene are declared. -/
structure AgreesWith (s : Scene) (code script : List Char) (front : List Line)
    (names : List (List Char)) : Prop where
  script_eq : s.script = .ok script
  lines_script : Text.lines script = front ++ stubsHeader :: (s.handlers.map handlerStub ++ [[]])
  lines : Text.lines code = front ++ stubsHeader :: (names.map handlerStub ++ [[]])
  /-- The line before the stubs occurs only there. -/
  header : stubsHeader ∉ front
  callee : ∀ name ∈ names, isCallee name = true
  nodup : (names.map handlerStub).Nodup
  declares : ∀ name ∈ s.handlers, (Text.lines code).any (declaresFunction name) = true

theorem handlerStub_injective : Function.Injective handlerStub := by
  obtain ⟨front, back, heq⟩ : ∃ front back, ∀ name, handlerStub name = front ++ name ++ back :=
    ⟨_, _, fun _ => rfl⟩
  intro a b hab
  rw [heq, heq] at hab
  exact List.append_cancel_left (List.append_cancel_right hab)

theorem stubsHeader_notMem (ds : List Drawing) :
    stubsHeader ∉ headerLines ++ (ds.flatMap fun d => d.lines (indentStep ++ indentStep)) ++
      footerLines.take 3 := by
  have hframe : stubsHeader ∉ headerLines ∧ stubsHeader ∉ footerLines.take 3 := by
    decide +kernel
  intro hmem
  rcases List.mem_append.1 hmem with hmem | hmem
  · rcases List.mem_append.1 hmem with hmem | hmem
    · exact hframe.1 hmem
    · -- a block is indented, the line before the stubs is not
      obtain ⟨d, -, hl⟩ := List.mem_flatMap.1 hmem
      obtain ⟨t, ht, -⟩ := d.exists_flat_of_mem_lines _ hl
      have hindent : (indentStep ++ indentStep ++ t).head? = some ' ' := rfl
      have hheader : stubsHeader.head? = some '-' := rfl
      rw [← ht, hheader] at hindent
      exact absurd hindent (by decide)
  · exact hframe.2 hmem

/-- A script of a scene agrees with the whole one. -/
theorem Written.exists_agreesWith {s : Scene} (h : s.Readable) {ds : List Drawing}
    {names : List (List Char)} (hw : s.Written ds names) :
    ∃ script front, s.AgreesWith (Drawing.code ds names) script front names := by
  have hlines : ∀ {names : List (List Char)}, (∀ name ∈ names, isCallee name = true) →
      Text.lines (Drawing.code ds names) =
        (headerLines ++ (ds.flatMap fun d => d.lines (indentStep ++ indentStep)) ++
          footerLines.take 3) ++ stubsHeader :: (names.map handlerStub ++ [[]]) := by
    intro names hnames
    have hfooter : footerLines = footerLines.take 3 ++ [stubsHeader] := rfl
    rw [Drawing.lines_code ds hnames, Drawing.scriptLines, writtenLines]
    conv_lhs => rw [hfooter]
    simp only [List.append_assoc, List.cons_append, List.nil_append]
  refine ⟨_, _, s.script_eq hw.elements, hlines h.isCallee_of_mem_handlers, hlines hw.callee,
    stubsHeader_notMem ds, hw.callee, hw.nodup.map handlerStub_injective, ?_⟩
  rw [Drawing.lines_code ds hw.callee]
  exact hw.declares

end Scene

/-! ## Steps of a session -/

theorem Element.id_of_create? {type id : String} {x y : Num} {e : Element}
    (h : create? type id x y = some e) : e.id = id := by
  unfold create? at h
  split at h
  · split at h
    · rw [← Option.some.inj h]
      rfl
    · simp at h
  · simp at h

/-- A step that takes in no script. -/
def SessionStep.IsEdit : SessionStep → Prop
  | .ingest _ _ => False
  | _ => True

namespace Session

variable {σ : Type}

/-- What a run keeps: ids are handed out once, those of the scene have been handed out, and the
script follows the scene. -/
structure Tracks (s : Session σ) (issued : List String) : Prop where
  ids : s.allocator.NeverRepeatsAfter issued s.ids
  order : ∀ id ∈ s.scene.order, id ∈ issued
  code : s.scene.Follows issued s.code

variable {s : Session σ} {issued : List String}

theorem Tracks.start {a : Allocator σ} {ids : σ} (h : a.NeverRepeats ids) :
    (start .default .empty none a ids).Tracks [] :=
  ⟨h, by simp [Session.start, Scene.empty], .placeholder⟩

/-- Leaving some ids out of the order, or none, keeps what a run keeps. -/
theorem Tracks.filter (h : s.Tracks issued) {scene : Scene} (p : String → Bool)
    (hscene : scene.order = s.scene.order.filter p) :
    ({ s with scene := scene } : Session σ).Tracks issued where
  ids := h.ids
  order id hid := by
    rw [hscene] at hid
    exact h.order id (List.mem_of_mem_filter hid)
  code := h.code.imp (fun _ hid => hid) fun old _ hold => hscene ▸ hold.filter p

theorem Tracks.same (h : s.Tracks issued) {scene : Scene} (hscene : scene.order = s.scene.order) :
    ({ s with scene := scene } : Session σ).Tracks issued :=
  h.filter (fun _ => true) (by rw [hscene, List.filter_true])

theorem Tracks.edit (h : s.Tracks issued) (key : String) (f : Element → Element.Edited) :
    (s.edit key f).2.Tracks issued := by
  unfold Session.edit
  cases s.scene.elements.get? key with
  | none => exact h
  | some e =>
    have hreplace : ({ s with scene := s.scene.replace key (f e).2 } : Session σ).Tracks issued :=
      h.same rfl
    dsimp only
    cases (f e).1 with
    | ok b => exact hreplace
    | error err => exact hreplace

/-- A new element comes last, under an id that was never handed out. -/
theorem Tracks.create (h : s.Tracks issued) (type : String) :
    ∃ issued', (s.create type).2.Tracks issued' := by
  obtain ⟨hnew, hnext⟩ := h.ids.next s.scene.elements.keys
  have hold : ∀ id ∈ issued, id ∈ issued ++ [(s.allocator s.scene.elements.keys s.ids).1] :=
    fun id hid => List.mem_append_left _ hid
  refine ⟨issued ++ [(s.allocator s.scene.elements.keys s.ids).1], ?_⟩
  unfold Session.create
  dsimp only
  split
  · exact ⟨hnext, fun id hid => hold id (h.order id hid), h.code.imp hold fun _ _ h => h⟩
  · next e he =>
    have hid : e.id = (s.allocator s.scene.elements.keys s.ids).1 := Element.id_of_create? he
    refine ⟨hnext, fun id hid' => ?_, h.code.imp hold fun old hissued hgrows => ?_⟩
    · rcases List.mem_append.1 hid' with hid' | hid'
      · exact hold id (h.order id hid')
      · rw [List.mem_singleton.1 hid', hid]
        exact List.mem_append_right _ List.mem_cons_self
    · exact hgrows.append_singleton fun hmem => hnew (hid ▸ hissued _ hmem)

/-- A mutation keeps what a run keeps, also when it fails. -/
theorem Tracks.mutate (h : s.Tracks issued) (m : Mutation) :
    ∃ issued', (s.mutate m).2.Tracks issued' := by
  cases m with
  | createElement type => exact h.create type
  | deleteElement id =>
    simp only [Session.mutate]
    split_ifs
    · exact ⟨issued, h.filter _ rfl⟩
    · exact ⟨issued, h⟩
  | deleteSelected =>
    simp only [Session.mutate]
    split_ifs
    · exact ⟨issued, h⟩
    · exact ⟨issued, h.filter _ rfl⟩
  | setSelection ids => exact ⟨issued, h.same rfl⟩
  | setPosition id x y => exact ⟨issued, h.edit id _⟩
  | moveBy id dx dy => exact ⟨issued, h.edit id _⟩
  | resize id w height => exact ⟨issued, h.edit id _⟩
  | setProperty id key value => exact ⟨issued, h.edit id _⟩
  | rename id name =>
    rw [Session.mutate]
    exact ⟨issued, h.edit id _⟩

/-- A session with a readable scene is patched, and its script is one of the scene. -/
theorem Tracks.regenerate (h : s.Tracks issued) (hreadable : s.scene.Readable) :
    ∃ ds names, s.regenerate = (.ok .nothing, { s with code := Drawing.code ds names }) ∧
      s.scene.Written ds names ∧ s.regenerate.2.Tracks issued := by
  obtain ⟨ds, names, hpatch, hwritten⟩ := hreadable.exists_patch h.code
  have hregenerate : s.regenerate = (.ok .nothing, { s with code := Drawing.code ds names }) := by
    rw [Session.regenerate, hpatch]
  refine ⟨ds, names, hregenerate, hwritten, ?_⟩
  rw [hregenerate]
  exact ⟨h.ids, h.order, hwritten.follows hreadable h.order⟩

/-- Patching changes the script alone. -/
theorem regenerate_snd (s : Session σ) : ∃ code, s.regenerate.2 = { s with code := code } := by
  unfold Session.regenerate
  cases s.scene.patch s.code with
  | error err => exact ⟨s.code, rfl⟩
  | ok code => exact ⟨code, rfl⟩

theorem scene_regenerate (s : Session σ) : s.regenerate.2.scene = s.scene := by
  obtain ⟨code, hcode⟩ := s.regenerate_snd
  rw [hcode]

theorem thenRegenerate_of_ok {stepped : Stepped σ} {outcome : Outcome}
    (h : stepped.1 = .ok outcome) (hregenerate : stepped.2.regenerate.1 = .ok .nothing) :
    thenRegenerate stepped = (.ok outcome, stepped.2.regenerate.2) := by
  obtain ⟨result, s⟩ := stepped
  obtain rfl : result = .ok outcome := h
  rw [thenRegenerate]
  cases hs : s.regenerate with
  | mk result s' =>
    rw [hs] at hregenerate
    obtain rfl : result = .ok .nothing := hregenerate
    rfl

/-- A step with a patch behind it ends with the patch, or without when it fails. -/
theorem thenRegenerate_snd (stepped : Stepped σ) :
    (thenRegenerate stepped).2 = stepped.2 ∨
      (thenRegenerate stepped).2 = stepped.2.regenerate.2 := by
  obtain ⟨result, s⟩ := stepped
  cases result with
  | error err => exact .inl rfl
  | ok outcome =>
    refine .inr ?_
    rw [thenRegenerate]
    cases hs : s.regenerate with
    | mk result s' => cases result <;> rfl

/-- Every step but taking in a script keeps what a run keeps. -/
theorem Tracks.step (h : s.Tracks issued) {step : SessionStep} (hstep : step.IsEdit)
    (hreadable : (s.step step).2.scene.Readable) :
    ∃ issued', (s.step step).2.Tracks issued' := by
  cases step with
  | mutate m => exact h.mutate m
  | apply m =>
    obtain ⟨issued', hm⟩ := h.mutate m
    have hstep : s.step (.apply m) = thenRegenerate (s.mutate m) := rfl
    rw [hstep] at hreadable ⊢
    rcases thenRegenerate_snd (s.mutate m) with heq | heq
    · exact ⟨issued', heq ▸ hm⟩
    · rw [heq, scene_regenerate] at hreadable
      obtain ⟨-, -, -, -, htracks⟩ := hm.regenerate hreadable
      exact ⟨issued', heq ▸ htracks⟩
  | regenerate =>
    have hscene : s.scene.Readable := s.scene_regenerate ▸ hreadable
    obtain ⟨-, -, -, -, htracks⟩ := h.regenerate hscene
    exact ⟨issued, htracks⟩
  | ingest text regenerate => exact hstep.elim

/-! ## Runs -/

/-- What a run keeps is kept by every run that takes in no script, as long as the scene is
readable. -/
theorem Tracks.run {steps : List SessionStep} (h : s.Tracks issued)
    (hedits : ∀ step ∈ steps, step.IsEdit)
    (hreadable : ∀ front, front <+: steps → (s.run front).scene.Readable) :
    ∃ issued', (s.run steps).Tracks issued' := by
  induction steps generalizing s issued with
  | nil => exact ⟨issued, h⟩
  | cons step steps ih =>
    have hstep : (s.step step).2.scene.Readable := hreadable [step] ⟨steps, rfl⟩
    obtain ⟨issued', hnext⟩ := h.step (hedits step List.mem_cons_self) hstep
    refine ih hnext (fun later hlater => hedits later (List.mem_cons_of_mem _ hlater)) ?_
    exact fun front hfront => hreadable (step :: front) (List.cons_prefix_cons.2 ⟨rfl, hfront⟩)

/-- A session with a readable scene has, once it is patched, a script that agrees with the whole
script of its scene. -/
theorem Tracks.agreesWith (h : s.Tracks issued) (hreadable : s.scene.Readable) :
    s.regenerate.1 = .ok .nothing ∧ ∃ script front names,
      s.regenerate.2.scene.AgreesWith s.regenerate.2.code script front names := by
  obtain ⟨ds, names, hregenerate, hwritten, -⟩ := h.regenerate hreadable
  rw [hregenerate]
  obtain ⟨script, front, hagrees⟩ := hwritten.exists_agreesWith hreadable
  exact ⟨rfl, script, front, names, hagrees⟩

/-- In a session that starts empty, with ids that are handed out once, after any run that takes in
no script and keeps the scene readable: patching succeeds and gives a script that agrees with the
whole script of the scene, and so does applying a mutation that succeeds. -/
theorem agreesWith_run {a : Allocator σ} {ids : σ} (hids : a.NeverRepeats ids)
    {steps : List SessionStep} (hedits : ∀ step ∈ steps, step.IsEdit)
    (hreadable : ∀ front, front <+: steps →
      ((start .default .empty none a ids).run front).scene.Readable) :
    let s := (start .default .empty none a ids).run steps
    ((s.step .regenerate).1 = .ok .nothing ∧ ∃ script front names,
      (s.step .regenerate).2.scene.AgreesWith (s.step .regenerate).2.code script front names) ∧
    ∀ m outcome, (s.mutate m).1 = .ok outcome → (s.mutate m).2.scene.Readable →
      (s.step (.apply m)).1 = .ok outcome ∧ ∃ script front names,
        (s.step (.apply m)).2.scene.AgreesWith (s.step (.apply m)).2.code script front names := by
  intro s
  obtain ⟨issued, htracks⟩ := (Tracks.start hids).run hedits hreadable
  refine ⟨htracks.agreesWith (hreadable steps (List.prefix_refl steps)),
    fun m outcome hm hscene => ?_⟩
  obtain ⟨issued', hmutated⟩ := htracks.mutate m
  obtain ⟨hok, hagrees⟩ := hmutated.agreesWith hscene
  have happly : s.step (.apply m) = (.ok outcome, (s.mutate m).2.regenerate.2) :=
    thenRegenerate_of_ok hm hok
  rw [happly]
  exact ⟨rfl, hagrees⟩

/-- A label and a button are drawn, and the label is removed once it has been written. -/
theorem agreesWith_run_label_removed :
    let s := (start .default .empty none Allocator.lengthening 0).run
      [.mutate (.createElement "text"), .regenerate, .mutate (.createElement "button")]
    (s.step (.apply (.deleteElement "a"))).1 = .ok (.done true) ∧ ∃ script front names,
      (s.step (.apply (.deleteElement "a"))).2.scene.AgreesWith
        (s.step (.apply (.deleteElement "a"))).2.code script front names := by
  intro s
  have hlabel : (Scene.empty.add (Element.ofType .text "a" 100 100)).Readable :=
    Scene.readable_empty.add (Element.readable_ofType rfl (by decide) (by decide)
      (by decide +kernel) (by decide +kernel)) (by decide)
  have hboth : ((Scene.empty.add (Element.ofType .text "a" 100 100)).add
      (Element.ofType .button "aa" 100 100)).Readable :=
    hlabel.add (Element.readable_ofType rfl (by decide) (by decide)
      (by decide +kernel) (by decide +kernel)) (by decide)
  obtain ⟨code, hcode⟩ := ((start .default .empty none Allocator.lengthening 0).run
    [.mutate (.createElement "text")]).regenerate_snd
  have hthird : s = ((start .default (Scene.empty.add (Element.ofType .text "a" 100 100))
      (some code) Allocator.lengthening 1).create "button").2 :=
    congrArg (fun s => (s.create "button").2) hcode
  have hscene : s.scene = (Scene.empty.add (Element.ofType .text "a" 100 100)).add
      (Element.ofType .button "aa" 100 100) := by
    rw [hthird]
    rfl
  refine (agreesWith_run (Allocator.neverRepeats_lengthening 0) ?_ ?_).2
    (.deleteElement "a") (.done true) ?_ ?_
  · simp [SessionStep.IsEdit]
  · intro front hfront
    rcases List.prefix_cons_iff.1 hfront with rfl | ⟨front₁, rfl, hfront₁⟩
    · exact Scene.readable_empty
    · rcases List.prefix_cons_iff.1 hfront₁ with rfl | ⟨front₂, rfl, hfront₂⟩
      · exact hlabel
      · rcases List.prefix_cons_iff.1 hfront₂ with rfl | ⟨front₃, rfl, hfront₃⟩
        · exact (scene_regenerate _).symm ▸ hlabel
        · rw [List.prefix_nil.1 hfront₃]
          exact hscene.symm ▸ hboth
  · have hcontains : s.scene.elements.contains "a" = true := by
      rw [hscene]
      decide
    exact congrArg Prod.fst (if_pos hcontains)
  · have hcontains : s.scene.elements.contains "a" = true := by
      rw [hscene]
      decide
    have hmutate : (s.mutate (.deleteElement "a")).2.scene = s.scene.remove "a" :=
      congrArg (fun stepped : Stepped ℕ => stepped.2.scene) (if_pos hcontains)
    rw [hmutate, hscene]
    exact hboth.remove "a"

end Session

end SceneScript
