import SceneScript.Proofs.Session.Orderly
import SceneScript.Session.Call

/-!
# Failed steps

A step that fails need not leave the session as it was. There are two ways in which it does not:

* A move adds to the horizontal place before it looks at the vertical part, and a call stores what
  it has been given before it is refused for its last value (`Session.PartlyEdited`).
* A mutation or a script that is taken in stays when the patch behind it fails. The session is then
  what it is without the patch, and every further patch fails the same way.

In all other cases nothing has changed but the state of what hands out ids.

Main statement: that there are no other ways, for a step and for a mutation called by any name with
any values (`Session.handle_of_error`). An infinite place, given by a call or by a script, is an
example of the second (`Session.handle_infinitePlace`).
-/

namespace SceneScript

/-! ## What is asked for -/

/-- An edit of an element that is made in two parts. -/
inductive SplitEdit where
  /-- First horizontally, then vertically. -/
  | move (id : String)
  /-- First the width, then the height. -/
  | resize (id : String)

/-- The edit in two parts that a mutation is. -/
def Mutation.splitEdit? : Mutation → Option SplitEdit
  | .moveBy id _ _ => some (.move id)
  | .resize id _ _ => some (.resize id)
  | _ => none

/-- The edit in two parts that a mutation with some values is; the first of them names the
element. -/
def Mutation.Operation.splitEdit? : Operation → List Json → Option SplitEdit
  | .moveBy, .str id :: _ => some (.move id)
  | .resize, .str id :: _ => some (.resize id)
  | _, _ => none

/-- What a session is asked for: a step, or a mutation by its name with any values, with a patch
behind it or without. -/
inductive Request where
  | step (step : SessionStep)
  | call (name : String) (arguments : List Json)
  | applyCall (name : String) (arguments : List Json)

namespace Request

/-- The edit in two parts that is asked for. -/
def splitEdit? : Request → Option SplitEdit
  | .step (.mutate m) | .step (.apply m) => m.splitEdit?
  | .step .regenerate | .step (.ingest _ _) => none
  | .call name arguments | .applyCall name arguments =>
    (Mutation.Operation.ofName? name).bind (·.splitEdit? arguments)

/-- What is asked for without the patch behind it, if there is one. -/
def withoutPatch? : Request → Option Request
  | .step (.apply m) => some (.step (.mutate m))
  | .step (.ingest text true) => some (.step (.ingest text false))
  | .applyCall name arguments => some (.call name arguments)
  | .step (.mutate _) | .step .regenerate | .step (.ingest _ false) | .call _ _ => none

/-- What can have a patch behind it. -/
theorem cases_of_withoutPatch? {r r' : Request} (h : r.withoutPatch? = some r') :
    (∃ m, r = .step (.apply m) ∧ r' = .step (.mutate m)) ∨
      (∃ text, r = .step (.ingest text true) ∧ r' = .step (.ingest text false)) ∨
        ∃ name arguments, r = .applyCall name arguments ∧ r' = .call name arguments := by
  unfold withoutPatch? at h
  split at h <;> simp only [Option.some.injEq, reduceCtorEq] at h <;> subst h
  · exact .inl ⟨_, rfl, rfl⟩
  · exact .inr (.inl ⟨_, rfl, rfl⟩)
  · exact .inr (.inr ⟨_, _, rfl, rfl⟩)

theorem of_withoutPatch? {r r' : Request} (h : r.withoutPatch? = some r') :
    r'.splitEdit? = r.splitEdit? ∧ r'.withoutPatch? = none := by
  obtain ⟨m, rfl, rfl⟩ | ⟨text, rfl, rfl⟩ | ⟨name, arguments, rfl, rfl⟩ :=
    cases_of_withoutPatch? h <;> exact ⟨rfl, rfl⟩

end Request

namespace Session

variable {σ : Type}

/-- What a session answers when it is asked for something, and the session after it. -/
def handle (s : Session σ) : Request → Called σ
  | .step step => .ofStepped (s.step step)
  | .call name arguments => s.callNamed name arguments
  | .applyCall name arguments => s.applyNamed name arguments

end Session

/-! ## Edits -/

theorem Entries.insert_of_get? {α : Type} {entries : List (String × α)} {key : String} {v : α}
    (h : get? entries key = some v) : insert entries key v = entries := by
  induction entries with
  | nil => cases h
  | cons entry rest ih =>
    obtain ⟨k, w⟩ := entry
    rw [get?] at h
    rw [insert]
    split at h
    · next hk =>
      obtain rfl := Option.some.inj h
      rw [if_pos hk]
    · next hk => rw [if_neg hk, ih h]

/-- Putting an element where it is changes nothing. -/
theorem Scene.replace_of_get? {s : Scene} {key : String} {e : Element}
    (h : s.elements.get? key = some e) : s.replace key e = s := by
  have hinsert : s.elements.insert key e = s.elements := Table.ext (Entries.insert_of_get? h)
  rw [replace, hinsert]

namespace Element

/-- A move that fails has not moved the element, or only horizontally. -/
theorem moveBy_of_error {e : Element} {dx dy : Num} {cause : NumberError}
    (h : (e.moveBy dx dy).1 = .error cause) : (e.moveBy dx dy).2 = e ∨
      ∃ x, e.x.add dx = .ok x ∧ (e.moveBy dx dy).2 = { e with x := x } := by
  unfold moveBy moveAcross moveDown at h ⊢
  cases hx : e.x.add dx with
  | error err => exact .inl rfl
  | ok x =>
    rw [hx] at h
    dsimp only at h ⊢
    cases hy : e.y.add dy with
    | error err => exact .inr ⟨x, rfl, rfl⟩
    | ok y =>
      rw [hy] at h
      cases h

theorem moveAcross_of_error {e : Element} {dx : Num} {cause : NumberError}
    (h : (e.moveAcross dx).1 = .error cause) : (e.moveAcross dx).2 = e := by
  unfold moveAcross at h ⊢
  split at h
  · cases h
  · rfl

theorem setProperty_of_error {e : Element} {key : String} {value : Json} {cause : NumberError}
    (h : (e.setProperty key value).1 = .error cause) : (e.setProperty key value).2 = e := by
  unfold setProperty at h ⊢
  split at h
  · rfl
  · cases h
  · cases h
  · cases h

theorem rename_ne_error (e : Element) (name : String) (cause : NumberError) :
    (e.rename name).1 ≠ .error cause := by
  unfold rename
  dsimp only
  split <;> simp

end Element

namespace Session

variable {σ : Type} {s : Session σ}

/-- An edit that fails has left what it says of an element. -/
theorem edit_of_error {key : String} {f : Element → Element.Edited} {err : SessionError}
    (h : (s.edit key f).1 = .error err) : ∃ e cause, s.scene.elements.get? key = some e ∧
      (f e).1 = .error cause ∧
        (s.edit key f).2 = { s with scene := s.scene.replace key (f e).2 } := by
  unfold edit at h ⊢
  cases hget : s.scene.elements.get? key with
  | none =>
    rw [hget] at h
    cases h
  | some e =>
    rw [hget] at h
    dsimp only at h ⊢
    cases hanswer : (f e).1 with
    | ok b =>
      rw [hanswer] at h
      cases h
    | error cause => exact ⟨e, cause, rfl, hanswer, rfl⟩

/-- An edit that leaves an element alone when it fails leaves the session alone then. -/
theorem edit_snd_of_error {key : String} {f : Element → Element.Edited} {err : SessionError}
    (h : (s.edit key f).1 = .error err)
    (hf : ∀ e cause, (f e).1 = .error cause → (f e).2 = e) : (s.edit key f).2 = s := by
  obtain ⟨e, cause, hget, hanswer, heq⟩ := edit_of_error h
  rw [heq, hf e cause hanswer, Scene.replace_of_get? hget]

/-- An edit changes the scene alone. -/
theorem exists_edit_eq (s : Session σ) (key : String) (f : Element → Element.Edited) :
    ∃ scene, (s.edit key f).2 = { s with scene := scene } := by
  unfold edit
  cases s.scene.elements.get? key with
  | none => exact ⟨s.scene, rfl⟩
  | some e =>
    dsimp only
    cases (f e).1 <;> exact ⟨_, rfl⟩

/-! ## Mutations -/

/-- A session in which a part of an edit has been done: an element has moved horizontally, or has
got a width. -/
inductive PartlyEdited (s : Session σ) : SplitEdit → Session σ → Prop
  | across {id : String} {e : Element} {dx x : Num} (he : s.scene.elements.get? id = some e)
      (hx : e.x.add dx = .ok x) :
      PartlyEdited s (.move id) { s with scene := s.scene.replace id { e with x := x } }
  | width {id : String} {e : Element} (w : Num) (he : s.scene.elements.get? id = some e) :
      PartlyEdited s (.resize id)
        { s with scene := s.scene.replace id { e with w := s.config.minExtent.max w } }

/-- What can be left by something that fails, given the edit in two parts that it is. -/
def LeavesOf (s : Session σ) (edit? : Option SplitEdit) (s' : Session σ) : Prop :=
  (∃ ids, s' = { s with ids := ids }) ∨ ∃ edit, edit? = some edit ∧ s.PartlyEdited edit s'

theorem LeavesOf.of_eq {edit? : Option SplitEdit} {s' : Session σ} (h : s' = s) :
    s.LeavesOf edit? s' := .inl ⟨s.ids, h⟩

theorem leavesOf_mutate {m : Mutation} {err : SessionError} (h : (s.mutate m).1 = .error err) :
    s.LeavesOf m.splitEdit? (s.mutate m).2 := by
  cases m with
  | createElement type =>
    simp only [Session.mutate, Session.create] at h ⊢
    split at h
    · exact .inl ⟨_, rfl⟩
    · cases h
  | deleteElement id =>
    simp only [Session.mutate] at h
    split_ifs at h
  | deleteSelected =>
    simp only [Session.mutate] at h
    split_ifs at h
  | setSelection ids => cases h
  | setPosition id x y =>
    exact .of_eq (edit_snd_of_error (f := fun e => e.setPosition x y) h
      fun e cause hf => by cases hf)
  | moveBy id dx dy =>
    obtain ⟨e, cause, hget, hanswer, heq⟩ := edit_of_error (f := fun e => e.moveBy dx dy) h
    rw [Session.mutate, heq]
    rcases Element.moveBy_of_error hanswer with hkept | ⟨x, hx, hmoved⟩
    · exact .of_eq (by rw [hkept, Scene.replace_of_get? hget])
    · rw [hmoved]
      exact .inr ⟨_, rfl, .across hget hx⟩
  | resize id w height =>
    exact .of_eq (edit_snd_of_error (f := fun e => e.resize s.config.minExtent w height) h
      fun e cause hf => by cases hf)
  | setProperty id key value =>
    exact .of_eq (edit_snd_of_error (f := fun e => e.setProperty key value) h
      fun e cause hf => Element.setProperty_of_error hf)
  | rename id name =>
    rw [Session.mutate] at h ⊢
    exact .of_eq (edit_snd_of_error h fun e cause hf => absurd hf (e.rename_ne_error name cause))

/-! ## Calls -/

theorem leavesOf_ofStepped {edit? : Option SplitEdit} {m : Mutation} {err : CallError}
    (h : (Called.ofStepped (s.mutate m)).1 = .error err) (hedit : m.splitEdit? = edit?) :
    s.LeavesOf edit? (Called.ofStepped (s.mutate m)).2 := by
  obtain rfl := hedit
  cases hm : (s.mutate m).1 with
  | error cause => exact leavesOf_mutate hm
  | ok outcome =>
    rw [Called.ofStepped, hm] at h
    cases h

theorem leavesOf_onElement {edit? : Option SplitEdit} {target : Json} {act : String → Called σ}
    {err : CallError} (h : (s.onElement target act).1 = .error err)
    (hact : ∀ id, target = .str id → (act id).1 = .error err → s.LeavesOf edit? (act id).2) :
    s.LeavesOf edit? (s.onElement target act).2 := by
  unfold onElement at h ⊢
  split at h
  · next id =>
    split at h
    · next hid =>
      rw [if_pos hid]
      exact hact id rfl h
    · cases h
  · split at h
    · cases h
    · next hkey =>
      rw [if_neg hkey]
      exact .of_eq rfl

theorem thenRefuse_snd (stepped : Stepped σ) : (thenRefuse stepped).2 = stepped.2 := by
  obtain ⟨_ | _, s⟩ := stepped <;> rfl

/-- A call that is refused after an edit has done the edit, unless that fails. -/
theorem thenRefuse_edit_snd (s : Session σ) (key : String) (f : Element → Element.Edited)
    (hf : ∀ e cause, (f e).1 = .error cause → (f e).2 = e) : (thenRefuse (s.edit key f)).2 = s ∨
      ∃ e b, s.scene.elements.get? key = some e ∧ (f e).1 = .ok b ∧
        (thenRefuse (s.edit key f)).2 = { s with scene := s.scene.replace key (f e).2 } := by
  rw [thenRefuse_snd]
  cases hedit : (s.edit key f).1 with
  | error err => exact .inl (edit_snd_of_error hedit hf)
  | ok outcome =>
    unfold edit at hedit ⊢
    cases hget : s.scene.elements.get? key with
    | none => exact .inl rfl
    | some e =>
      rw [hget] at hedit
      dsimp only at hedit ⊢
      cases hanswer : (f e).1 with
      | error cause =>
        rw [hanswer] at hedit
        cases hedit
      | ok b => exact .inr ⟨e, b, rfl, hanswer, rfl⟩

theorem leavesOf_callMove {id : String} {dx dy : Json} {err : CallError}
    (h : (s.callMove id dx dy).1 = .error err) :
    s.LeavesOf (some (.move id)) (s.callMove id dx dy).2 := by
  unfold callMove at h ⊢
  split at h
  · exact leavesOf_ofStepped h rfl
  · next dx hdx hdy =>
    rcases s.thenRefuse_edit_snd id (fun e => e.moveAcross dx)
      (fun e cause hf => Element.moveAcross_of_error hf) with heq | ⟨e, b, hget, hok, heq⟩
    · exact .of_eq heq
    · rw [heq]
      unfold Element.moveAcross at hok ⊢
      split at hok
      · next x hx => exact .inr ⟨_, rfl, .across hget hx⟩
      · cases hok
  · exact .of_eq rfl

theorem leavesOf_callResize {id : String} {w height : Json} {err : CallError}
    (h : (s.callResize id w height).1 = .error err) :
    s.LeavesOf (some (.resize id)) (s.callResize id w height).2 := by
  unfold callResize at h ⊢
  split at h
  · exact leavesOf_ofStepped h rfl
  · next w hw hheight =>
    rcases s.thenRefuse_edit_snd id (fun e => e.setWidth s.config.minExtent w)
      (fun e cause hf => by cases hf) with heq | ⟨e, b, hget, hok, heq⟩
    · exact .of_eq heq
    · rw [heq]
      exact .inr ⟨_, rfl, .width w hget⟩
  · exact .of_eq rfl

theorem leavesOf_callPlace {id : String} {x y : Json} {err : CallError}
    (h : (s.callPlace id x y).1 = .error err) :
    s.LeavesOf none (s.callPlace id x y).2 := by
  unfold callPlace at h ⊢
  split at h
  · exact leavesOf_ofStepped h rfl
  · exact .of_eq rfl

theorem leavesOf_callCreate {type : Json} {err : CallError}
    (h : (s.callCreate type).1 = .error err) : s.LeavesOf none (s.callCreate type).2 := by
  unfold callCreate at h ⊢
  split at h
  · exact leavesOf_ofStepped h rfl
  · -- the empty text is no name of a type, so only an id is handed out
    have hunknown : (s.mutate (.createElement "")).1 = .error (.unknownType "") := rfl
    exact leavesOf_mutate hunknown

theorem leavesOf_callSelect {ids : Json} {err : CallError}
    (h : (s.callSelect ids).1 = .error err) : s.LeavesOf none (s.callSelect ids).2 := by
  unfold callSelect at h ⊢
  split at h
  · exact .of_eq rfl
  · split at h
    · cases h
    · next hkeys =>
      rw [if_neg hkeys]
      exact .of_eq rfl

theorem leavesOf_callSetProperty {id : String} {key value : Json} {err : CallError}
    (h : (s.callSetProperty id key value).1 = .error err) :
    s.LeavesOf none (s.callSetProperty id key value).2 := by
  unfold callSetProperty at h ⊢
  split at h
  · exact leavesOf_ofStepped h rfl
  · cases h

theorem leavesOf_callRename {id : String} {name : Json} {err : CallError}
    (h : (s.callRename id name).1 = .error err) : s.LeavesOf none (s.callRename id name).2 := by
  unfold callRename at h ⊢
  split at h
  · exact leavesOf_ofStepped h rfl
  · exact .of_eq rfl

theorem leavesOf_call {op : Mutation.Operation} {arguments : List Json} {err : CallError}
    (h : (s.call op arguments).1 = .error err) :
    s.LeavesOf (op.splitEdit? arguments) (s.call op arguments).2 := by
  unfold call at h ⊢
  split at h
  · exact leavesOf_callCreate h
  · exact leavesOf_onElement h fun id _ h => leavesOf_ofStepped h rfl
  · exact leavesOf_ofStepped h rfl
  · exact leavesOf_callSelect h
  · exact leavesOf_onElement h fun id _ h => leavesOf_callPlace h
  · refine leavesOf_onElement h fun id hid h => ?_
    rw [hid]
    exact leavesOf_callMove h
  · refine leavesOf_onElement h fun id hid h => ?_
    rw [hid]
    exact leavesOf_callResize h
  · exact leavesOf_onElement h fun id _ h => leavesOf_callSetProperty h
  · exact leavesOf_onElement h fun id _ h => leavesOf_callRename h
  · exact .of_eq rfl

theorem leavesOf_callNamed {name : String} {arguments : List Json} {err : CallError}
    (h : (s.callNamed name arguments).1 = .error err) :
    s.LeavesOf ((Mutation.Operation.ofName? name).bind (·.splitEdit? arguments))
      (s.callNamed name arguments).2 := by
  unfold callNamed at h ⊢
  cases hname : Mutation.Operation.ofName? name with
  | none => exact .of_eq rfl
  | some op =>
    rw [hname] at h
    exact leavesOf_call h

/-! ## What calls change -/

/-- That one session is another but for its scene and what hands out ids. -/
def AltersScene (s s' : Session σ) : Prop :=
  ∃ scene ids, s' = { s with scene := scene, ids := ids }

theorem AltersScene.refl (s : Session σ) : s.AltersScene s := ⟨s.scene, s.ids, rfl⟩

theorem altersScene_mutate (s : Session σ) (m : Mutation) : s.AltersScene (s.mutate m).2 := by
  obtain ⟨scene, ids, heq, -⟩ := s.exists_mutate_eq m
  exact ⟨scene, ids, heq⟩

theorem altersScene_thenRefuse_edit (s : Session σ) (key : String)
    (f : Element → Element.Edited) : s.AltersScene (thenRefuse (s.edit key f)).2 := by
  obtain ⟨scene, heq⟩ := s.exists_edit_eq key f
  exact ⟨scene, s.ids, (thenRefuse_snd _).trans heq⟩

theorem altersScene_onElement {target : Json} {act : String → Called σ}
    (hact : ∀ id, s.AltersScene (act id).2) : s.AltersScene (s.onElement target act).2 := by
  unfold onElement
  split
  · split
    · exact hact _
    · exact .refl s
  · split <;> exact .refl s

theorem altersScene_call (s : Session σ) (op : Mutation.Operation) (arguments : List Json) :
    s.AltersScene (s.call op arguments).2 := by
  unfold call
  split
  · unfold callCreate
    split <;> exact s.altersScene_mutate _
  · exact altersScene_onElement fun id => s.altersScene_mutate _
  · exact s.altersScene_mutate _
  · unfold callSelect
    split
    · exact .refl s
    · split
      · exact s.altersScene_mutate _
      · exact .refl s
  · refine altersScene_onElement fun id => ?_
    unfold callPlace
    split
    · exact s.altersScene_mutate _
    · exact .refl s
  · refine altersScene_onElement fun id => ?_
    unfold callMove
    split
    · exact s.altersScene_mutate _
    · exact s.altersScene_thenRefuse_edit _ _
    · exact .refl s
  · refine altersScene_onElement fun id => ?_
    unfold callResize
    split
    · exact s.altersScene_mutate _
    · exact s.altersScene_thenRefuse_edit _ _
    · exact .refl s
  · refine altersScene_onElement fun id => ?_
    unfold callSetProperty
    split
    · exact s.altersScene_mutate _
    · exact .refl s
  · refine altersScene_onElement fun id => ?_
    unfold callRename
    split
    · exact s.altersScene_mutate _
    · exact .refl s
  · exact .refl s

theorem altersScene_callNamed (s : Session σ) (name : String) (arguments : List Json) :
    s.AltersScene (s.callNamed name arguments).2 := by
  unfold callNamed
  split
  · exact s.altersScene_call _ _
  · exact .refl s

/-! ## Patches -/

/-- A patch that fails leaves the session alone. -/
theorem regenerate_cases (s : Session σ) :
    (∃ code, s.regenerate = (.ok .nothing, { s with code := code })) ∨
      ∃ cause, s.regenerate = (.error (.number cause), s) := by
  unfold regenerate
  cases s.scene.patch s.code with
  | ok code => exact .inl ⟨code, rfl⟩
  | error cause => exact .inr ⟨cause, rfl⟩

/-- What is answered with a patch behind it. -/
def Called.patched : Called σ → Called σ
  | (.error err, s) => (.error err, s)
  | (.ok outcome, s) =>
    match s.regenerate with
    | (.ok _, s) => (.ok outcome, s)
    | (.error err, s) => (.error (.step err), s)

theorem ofStepped_thenRegenerate (stepped : Stepped σ) :
    Called.ofStepped (thenRegenerate stepped) = (Called.ofStepped stepped).patched := by
  obtain ⟨cause | outcome, s⟩ := stepped
  · rfl
  · rcases s.regenerate_cases with ⟨code, heq⟩ | ⟨cause, heq⟩ <;>
      simp [Called.ofStepped, thenRegenerate, Called.patched, Except.mapError, heq]

theorem applyNamed_eq_patched (s : Session σ) (name : String) (arguments : List Json) :
    s.applyNamed name arguments = (s.callNamed name arguments).patched := by
  unfold applyNamed
  obtain ⟨cause | outcome, s'⟩ := s.callNamed name arguments <;> rfl

/-- What has a patch behind it does what it does without, and then the patch. -/
theorem handle_eq_patched {r r' : Request} (h : r.withoutPatch? = some r') :
    s.handle r = (s.handle r').patched := by
  obtain ⟨m, rfl, rfl⟩ | ⟨text, rfl, rfl⟩ | ⟨name, arguments, rfl, rfl⟩ :=
    Request.cases_of_withoutPatch? h
  · exact ofStepped_thenRegenerate (s.mutate m)
  · exact ofStepped_thenRegenerate (s.takeIn text)
  · exact s.applyNamed_eq_patched name arguments

/-- What is left by something that would have succeeded without the patch behind it: what it has
done stays, and the patch that has failed fails again each time. -/
def LeftUnpatched (s : Session σ) (r : Request) (err : CallError) (s' : Session σ) : Prop :=
  ∃ r' outcome cause, r.withoutPatch? = some r' ∧ s.handle r' = (.ok outcome, s') ∧
    err = .step (.number cause) ∧ s'.regenerate = (.error (.number cause), s')

theorem leftUnpatched_of_error {r r' : Request} {err : CallError} (hr : r.withoutPatch? = some r')
    (h : (s.handle r).1 = .error err) :
    s.handle r = s.handle r' ∨ s.LeftUnpatched r err (s.handle r).2 := by
  rw [handle_eq_patched hr] at h ⊢
  rcases hunpatched : s.handle r' with ⟨cause | outcome, s'⟩
  · exact .inl rfl
  · rw [hunpatched] at h
    rcases s'.regenerate_cases with ⟨code, heq⟩ | ⟨cause, heq⟩
    · simp [Called.patched, heq] at h
    · simp only [Called.patched, heq, Except.error.injEq] at h ⊢
      exact .inr ⟨r', outcome, cause, hr, hunpatched, h.symm, heq⟩

theorem takeIn_of_error {text : List Char} {err : SessionError}
    (h : (s.takeIn text).1 = .error err) : (s.takeIn text).2 = s := by
  unfold takeIn at h ⊢
  split at h
  · rfl
  · cases h

/-! ## Steps -/

theorem error_of_ofStepped {stepped : Stepped σ} {err : CallError}
    (h : (Called.ofStepped stepped).1 = .error err) : ∃ cause, stepped.1 = .error cause := by
  obtain ⟨cause | outcome, s⟩ := stepped
  · exact ⟨cause, rfl⟩
  · cases h

/-- Without a patch behind it, what fails leaves what a mutation of its kind can leave. -/
theorem leavesOf_of_withoutPatch? {r : Request} {err : CallError}
    (hr : r.withoutPatch? = none) (h : (s.handle r).1 = .error err) :
    s.LeavesOf r.splitEdit? (s.handle r).2 := by
  cases r with
  | call name arguments => exact leavesOf_callNamed h
  | applyCall name arguments => cases hr
  | step step =>
    cases step with
    | mutate m => exact leavesOf_ofStepped h rfl
    | apply m => cases hr
    | regenerate =>
      rcases s.regenerate_cases with ⟨code, heq⟩ | ⟨cause, heq⟩
      · obtain ⟨cause, hcause⟩ := error_of_ofStepped h
        rw [Session.step, heq] at hcause
        cases hcause
      · exact .of_eq (congrArg Prod.snd heq)
    | ingest text regenerate =>
      cases regenerate with
      | true => cases hr
      | false =>
        obtain ⟨cause, hcause⟩ := error_of_ofStepped h
        exact .of_eq (takeIn_of_error hcause)

theorem left_of_error {r : Request} {err : CallError} (h : (s.handle r).1 = .error err) :
    s.LeavesOf r.splitEdit? (s.handle r).2 ∨ s.LeftUnpatched r err (s.handle r).2 := by
  cases hr : r.withoutPatch? with
  | none => exact .inl (leavesOf_of_withoutPatch? hr h)
  | some r' =>
    obtain ⟨hedit, hwithout⟩ := Request.of_withoutPatch? hr
    refine (leftUnpatched_of_error hr h).imp_left fun heq => ?_
    rw [heq] at h ⊢
    exact hedit ▸ leavesOf_of_withoutPatch? hwithout h

theorem PartlyEdited.altersScene {edit : SplitEdit} {s' : Session σ}
    (h : s.PartlyEdited edit s') : s.AltersScene s' := by
  cases h with
  | across he hx => exact ⟨_, s.ids, rfl⟩
  | width w he => exact ⟨_, s.ids, rfl⟩

theorem LeftUnpatched.altersScene {r : Request} {err : CallError} {s' : Session σ}
    (h : s.LeftUnpatched r err s') (hr : ∀ text, r ≠ .step (.ingest text true)) :
    s.AltersScene s' := by
  obtain ⟨r', outcome, cause, hwithout, hhandle, -⟩ := h
  obtain rfl : (s.handle r').2 = s' := congrArg Prod.snd hhandle
  obtain ⟨m, rfl, rfl⟩ | ⟨text, rfl, rfl⟩ | ⟨name, arguments, rfl, rfl⟩ :=
    Request.cases_of_withoutPatch? hwithout
  · exact s.altersScene_mutate m
  · exact absurd rfl (hr text)
  · exact s.altersScene_callNamed name arguments

/-- What is asked for and fails has changed nothing but what hands out ids, or has left the edit
that it is half done, or would have succeeded without the patch behind it. Unless it takes in a
script, the script and the decisions are what they were. -/
theorem handle_of_error {s : Session σ} {r : Request} {err : CallError}
    (h : (s.handle r).1 = .error err) :
    ((∃ ids, (s.handle r).2 = { s with ids := ids }) ∨
      (∃ edit, r.splitEdit? = some edit ∧ s.PartlyEdited edit (s.handle r).2) ∨
        s.LeftUnpatched r err (s.handle r).2) ∧
      ((∀ text, r ≠ .step (.ingest text true)) →
        (s.handle r).2.code = s.code ∧ (s.handle r).2.decisions = s.decisions) := by
  have hleft := or_assoc.1 (left_of_error h)
  refine ⟨hleft, fun hr => ?_⟩
  have halters : s.AltersScene (s.handle r).2 := by
    rcases hleft with ⟨ids, heq⟩ | ⟨edit, -, hpartly⟩ | hunpatched
    · exact ⟨s.scene, ids, heq⟩
    · exact hpartly.altersScene
    · exact hunpatched.altersScene hr
  obtain ⟨scene, ids, heq⟩ := halters
  rw [heq]
  exact ⟨rfl, rfl⟩

/-- A session with a box that is too far down to be moved by a half. -/
def lowBoxSession : Session IdSource :=
  start .default (Scene.empty.add (Element.ofType .rect "a" 0 (.int (10 ^ 400)))) none
    (IdSource.allocate 6) (IdSource.ofGiven [])

/-- The box moves horizontally before its move fails. -/
theorem handle_of_error_lowBoxSession :
    let r := Request.step (.mutate (.moveBy "a" 1 (.double Binary64.oneHalf)))
    let err := CallError.step (.number .integerTooLarge)
    (lowBoxSession.handle r).1 = .error err ∧
      ((∃ ids, (lowBoxSession.handle r).2 = { lowBoxSession with ids := ids }) ∨
        (∃ edit, r.splitEdit? = some edit ∧
            lowBoxSession.PartlyEdited edit (lowBoxSession.handle r).2) ∨
          lowBoxSession.LeftUnpatched r err (lowBoxSession.handle r).2) ∧
        ((∀ text, r ≠ .step (.ingest text true)) →
          (lowBoxSession.handle r).2.code = lowBoxSession.code ∧
            (lowBoxSession.handle r).2.decisions = lowBoxSession.decisions) := by
  intro r err
  have hmap : (lowBoxSession.handle r).1.map (fun _ => ()) = .error err := by decide +kernel
  have herror : (lowBoxSession.handle r).1 = .error err := by
    cases hanswer : (lowBoxSession.handle r).1 with
    | error cause => exact congrArg _ (Except.error.inj (hanswer ▸ hmap))
    | ok outcome => exact absurd (hanswer ▸ hmap) (by simp [Except.map])
  exact ⟨herror, handle_of_error herror⟩

/-- A script that draws a box at an infinite place. -/
def farScript : List Char :=
  ("function draw()\nUiPush()\nUiTranslate(1e999, 0)\n--TDGUI id=a type=rect\nUiPush()\n" ++
    "UiRect(1, 1)\nUiPop()\nUiPop()\nend\n").toList

/-- A session with a box. -/
def boxSession : Session IdSource :=
  start .default (Scene.empty.add (Element.ofType .rect "a" 0 0)) none (IdSource.allocate 6)
    (IdSource.ofGiven [])

/-- The place and the script are kept although the patch behind them fails, and so are the decisions
about the script. -/
theorem handle_infinitePlace :
    let err := Except.error (CallError.step (.number .wholeOfInfinity))
    let placed := boxSession.handle
      (.applyCall "set_position" [.str "a", .num (.double (.infinite false)), .num 0])
    let read := boxSession.handle (.step (.ingest farScript true))
    (placed.1.map (fun _ => ()) = err ∧
      boxSession.scene.orderedElements.map Element.x = [0] ∧
      placed.2.scene.orderedElements.map Element.x = [.double (.infinite false)]) ∧
    read.1.map (fun _ => ()) = err ∧
      boxSession.code ≠ read.2.code ∧ read.2.code = farScript ∧
      boxSession.decisions.map Decision.id = [] ∧ read.2.decisions.map Decision.id = ["a"] := by
  decide +kernel

end Session

end SceneScript
