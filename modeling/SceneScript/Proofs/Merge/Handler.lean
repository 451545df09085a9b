import SceneScript.Proofs.Merge.Account
import SceneScript.Proofs.Script.Handler
import SceneScript.Proofs.Script.Settle

/-!
# The handler of a merged element

A candidate stores the handler that the script calls, unless it is the one made from its name: that
one it leaves out, and a merge keeps what the element has stored before. So the script decides on
the handler, with one exception: an element that names a handler itself keeps it when the script
goes back to the one made from the name.

Main statement: which handler the element of a candidate calls (`Scene.exists_handlerName?`).
-/

namespace SceneScript

open Text

namespace Element

/-- The handler that an element names itself, if it does: its prop without the blanks around it. -/
def ownHandler? (e : Element) (k : HandlerKey) : Option (List Char) :=
  match e.props.get? k.key with
  | some (.str name) => if (trim name.toList).isEmpty then none else some (trim name.toList)
  | _ => none

/-- An element calls the handler that it names itself, or else the one made from its name. -/
theorem handlerName?_eq_getD {e : Element} {k : HandlerKey}
    (hk : (shapeOf? e.type).bind Shape.handler? = some k) :
    e.handlerName? = some ((e.ownHandler? k).getD (k.derivedName e.name.toList)) := by
  obtain ⟨s, hshape, hk⟩ := Option.bind_eq_some_iff.1 hk
  rw [handlerName?_eq hshape hk, ownHandler?]
  cases e.props.get? k.key with
  | none => rfl
  | some v =>
    cases v with
    | str name =>
      dsimp only
      split <;> rfl
    | _ => rfl

/-- A stored callee is the handler. -/
theorem ownHandler?_of_callee {e : Element} {k : HandlerKey} {handler : List Char}
    (hcallee : Lua.isCallee handler = true)
    (h : e.props.get? k.key = some (.str (String.ofList handler))) :
    e.ownHandler? k = some handler := by
  obtain ⟨hne, hplain⟩ := Lua.isNameChar_of_isCallee hcallee
  rw [ownHandler?, h]
  dsimp only
  rw [String.toList_ofList, (Lua.tight_of_name hne hplain).trim, if_neg (by simpa using hne)]

theorem ownHandler?_of_none {e : Element} {k : HandlerKey} (h : e.props.get? k.key = none) :
    e.ownHandler? k = none := by
  rw [ownHandler?, h]

end Element

/-! ## One candidate -/

namespace Candidate

variable {c : Candidate} {k : HandlerKey} {handler : List Char}

/-- A candidate that derives its handler gives its element the name that it is made from. -/
theorem derivedName_of_derives (hname : ∀ name, c.name? = some name → name.toList ≠ [])
    (h : c.derives k handler = true) (second : String) :
    k.derivedName (nonemptyOr c.name? second).toList = handler := by
  unfold derives at h
  split at h
  · next name heq =>
    have hne : name.isEmpty = false := by
      rw [Bool.eq_false_iff, Ne, String.isEmpty_iff]
      exact fun hempty => hname name heq (by rw [hempty]; rfl)
    rw [heq, nonemptyOr, hne]
    simpa using h
  · cases h

namespace TellsHandler

variable (h : c.TellsHandler k handler)

include h

/-- An element with the handler that a candidate stores calls it. -/
theorem handlerName?_of_stored {e : Element} (htype : e.type = c.type)
    (hderives : c.derives k handler = false)
    (hprops : ∀ v, c.props.get? k.key = some v → e.props.get? k.key = some v) :
    e.handlerName? = some handler := by
  have hstored : c.props.get? k.key = some (.str (String.ofList handler)) :=
    h.stored.trans (if_neg (by simp [hderives]))
  have hkey : (shapeOf? e.type).bind Shape.handler? = some k := by
    rw [htype]
    exact h.key
  rw [Element.handlerName?_eq_getD hkey,
    Element.ownHandler?_of_callee h.callee (hprops _ hstored), Option.getD_some]

variable (hname : ∀ name, c.name? = some name → name.toList ≠ [])

include hname

/-- An element that is taken over calls the handler of the candidate, but when that is the one made
from the name and the element names one itself. -/
theorem handlerName?_update (e : Element) : (c.update e).handlerName? =
    some (if c.derives k handler then (e.ownHandler? k).getD handler else handler) := by
  split
  · next hderives =>
    have hnone : c.props.get? k.key = none := h.stored.trans (if_pos hderives)
    obtain ⟨s, hshape, hk⟩ := Option.bind_eq_some_iff.1 h.key
    obtain ⟨hs, htype⟩ := shapeOf?_eq_some hshape
    obtain ⟨spec, hspec, -⟩ := (Shape.creatable_of_mem_shapes s hs).2 k hk
    have hprops : (c.update e).props.get? k.key = e.props.get? k.key := by
      rw [update, mergeProps, Table.get?_merge, hnone, Option.none_or]
      refine Table.get?_filter fun v => ?_
      rw [← htype, hspec]
      rfl
    have hown : (c.update e).ownHandler? k = e.ownHandler? k := by
      rw [Element.ownHandler?, hprops, Element.ownHandler?]
    rw [Element.handlerName?_eq_getD (e := c.update e) h.key, hown]
    exact congrArg (fun name => some ((e.ownHandler? k).getD name))
      (derivedName_of_derives hname hderives e.name)
  · next hderives =>
    refine h.handlerName?_of_stored rfl (by simpa using hderives) fun v hv => ?_
    rw [update, mergeProps, Table.get?_merge, hv, Option.some_or]

/-- A new element calls the handler of the candidate. -/
theorem handlerName?_create (id : String) : (c.create id).handlerName? = some handler := by
  cases hderives : c.derives k handler with
  | true =>
    have hnone : (c.create id).props.get? k.key = none := h.stored.trans (if_pos hderives)
    rw [Element.handlerName?_eq_getD (e := c.create id) h.key,
      Element.ownHandler?_of_none hnone, Option.getD_none]
    exact congrArg some (derivedName_of_derives hname hderives _)
  | false => exact h.handlerName?_of_stored rfl hderives fun _ hv => hv

end TellsHandler

end Candidate

/-! ## The merge -/

/-- The handler that an element of a scene names itself. -/
def Scene.ownHandler? (s : Scene) (id : String) (k : HandlerKey) : Option (List Char) :=
  (s.elements.get? id).bind fun e => e.ownHandler? k

/-- The element that a candidate makes of a scene calls the handler of the candidate, but when that
is the one made from the name and the scene has another of the element. -/
theorem MergeState.Makes.handlerName?_eq {s : Scene} {c : Candidate} {index : ℕ} {e : Element}
    {d : Decision} (h : Makes s c index e d) {k : HandlerKey} {handler : List Char}
    (htells : c.TellsHandler k handler) (hname : ∀ name, c.name? = some name → name.toList ≠ []) :
    e.handlerName? =
      some (if c.derives k handler then (s.ownHandler? d.id k).getD handler else handler) := by
  cases h with
  | update he hreason =>
    refine (htells.handlerName?_update hname _).trans ?_
    rw [Scene.ownHandler?, he]
    rfl
  | create hid hreason =>
    refine (htells.handlerName?_create hname _).trans ?_
    rw [Scene.ownHandler?, Table.get?_eq_none_iff.2 hid]
    exact congrArg some (ite_self _).symm

namespace Scene

/-- The element of a candidate whose statement calls a handler calls that handler, but when it is
the one made from the name on the marker and the element has named one itself before: that one
stays. -/
theorem exists_handlerName? {s : Scene}
    (hkeys : ∀ entry ∈ s.elements.entries, entry.2.id = entry.1)
    (horder : s.order.Perm s.elements.keys) {σ : Type} {allocate : Allocator σ}
    (hfresh : allocate.Fresh) {text : List Char} {cs : List Candidate}
    (h : candidatesOf text = .ok cs) {es : List (ℕ × Event)} (hes : eventsOf text = .ok es)
    {index : ℕ} {handler : List Char}
    (hcalls : CallsHandler (bindingsOf (Text.lines text)) es index handler) (state : σ) :
    ∃ c k d e, cs[index]? = some c ∧ c.handlerKey? = some k ∧
      (s.reconcile allocate cs state).1.decisions[index]? = some d ∧
      (s.reconcile allocate cs state).1.scene.elements.get? d.id = some e ∧
      e.handlerName? =
        some (if c.derives k handler then (s.ownHandler? d.id k).getD handler else handler) := by
  obtain ⟨c, k, hc, htells⟩ := exists_tellsHandler h hes hcalls
  have hname := (marked_of_candidatesOf h c (List.mem_of_getElem? hc)).name_ne
  obtain ⟨made, others, hall, -, hentries, -, -, hdecisions⟩ :=
    exists_reconcile_eq hkeys horder hfresh (List.ne_nil_of_mem (List.mem_of_getElem? hc)) state
  have hindex : cs.zipIdx[index]? = some (c, index) := by
    rw [List.getElem?_zipIdx, hc, Nat.zero_add]
    rfl
  obtain ⟨⟨e, d⟩, hq, hmakes⟩ := exists_getElem?_of_forall₂ hall hindex
  refine ⟨c, k, d, e, hc, htells.key, ?_, ?_, hmakes.handlerName?_eq htells hname⟩
  · rw [hdecisions, List.getElem?_append_left (by simpa using (List.getElem?_eq_some_iff.1 hq).1),
      List.getElem?_map, hq]
    rfl
  · rw [hmakes.id_eq, Table.get?_eq_some_iff, hentries]
    exact List.mem_map_of_mem (f := fun e : Element => (e.id, e)) (List.mem_append_left _
      (List.mem_map_of_mem (f := Prod.fst) (List.mem_of_getElem? hq)))

/-- A button named Go, with a handler of its own. -/
def customButton : Scene :=
  empty.add { Element.ofType .button "a" 0 0 with
    name := "Go", props := Table.ofList [("text", .str "Go"), ("onPress", .str "custom")] }

/-- A script in which the button calls the handler that is made from its name. -/
def goScript : List Char := ("--TDGUI id=a name=Go type=button w=120 h=40\nUiPush()\n" ++
  "if UiTextButton(\"Go\", 120, 40) then onGoPress() end\nUiPop()\n").toList

/-- What that script says. -/
def goEvents : List (ℕ × Event) :=
  [(1, .marker ⟨some "a", some "Go", some "button", some 120, some 40⟩),
    (2, .statement "UiPush()".toList),
    (3, .statement "if UiTextButton(\"Go\", 120, 40) then onGoPress() end".toList),
    (4, .statement "UiPop()".toList)]

theorem eventsOf_goScript : eventsOf goScript = .ok goEvents := by decide +kernel

theorem callsHandler_goEvents :
    CallsHandler (bindingsOf (Text.lines goScript)) goEvents 0 "onGoPress".toList :=
  @CallsHandler.condition _ _ _ _ (goEvents.take 2) (goEvents.drop 3) 3 _
    (Shape.pressed .button "UiTextButton" (Shape.string "text" :: Shape.rounded ["w", "h"]))
    ⟨["\"Go\"".toList, "120".toList, "40".toList], some "onGoPress".toList, []⟩ rfl
    (by unfold MakesCandidate; decide +kernel) (by decide +kernel) rfl

theorem exists_candidatesOf_goScript : ∃ cs, candidatesOf goScript = .ok cs ∧
    (((customButton.reconcile (IdSource.allocate 6) cs (IdSource.ofGiven [])).1.decisions.map
      Decision.id) = ["a"] ∧
    ((customButton.reconcile (IdSource.allocate 6) cs
      (IdSource.ofGiven [])).1.scene.elements.get? "a").bind Element.handlerName? =
        some "custom".toList) := by
  have hcs : (candidatesOf goScript).toOption.map (fun cs =>
      let r := (customButton.reconcile (IdSource.allocate 6) cs (IdSource.ofGiven [])).1
      (r.decisions.map Decision.id, (r.scene.elements.get? "a").bind Element.handlerName?)) =
      some (["a"], some "custom".toList) := by
    decide +kernel
  obtain ⟨cs, hcs, hresult⟩ := exists_of_toOption_map hcs
  exact ⟨cs, hcs, Prod.mk.inj hresult⟩

theorem sound_customButton : customButton.Sound :=
  sound_empty.add ⟨⟨.button, by decide, by decide⟩, .ofList (by decide +kernel)⟩ (by decide)

/-- The button keeps its own handler. -/
theorem exists_handlerName?_goScript : ∃ cs, candidatesOf goScript = .ok cs ∧
    eventsOf goScript = .ok goEvents ∧
    CallsHandler (bindingsOf (Text.lines goScript)) goEvents 0 "onGoPress".toList ∧
    ∃ c k d e, cs[0]? = some c ∧ c.handlerKey? = some k ∧
      (customButton.reconcile (IdSource.allocate 6) cs (IdSource.ofGiven [])).1.decisions[0]? =
        some d ∧
      (customButton.reconcile (IdSource.allocate 6) cs
        (IdSource.ofGiven [])).1.scene.elements.get? d.id = some e ∧
      e.handlerName? = some (if c.derives k "onGoPress".toList then
        (customButton.ownHandler? d.id k).getD "onGoPress".toList else "onGoPress".toList) := by
  obtain ⟨cs, hcs, -⟩ := exists_candidatesOf_goScript
  exact ⟨cs, hcs, eventsOf_goScript, callsHandler_goEvents,
    exists_handlerName? sound_customButton.keys sound_customButton.order
      (IdSource.fresh_allocate 6) hcs eventsOf_goScript callsHandler_goEvents _⟩

/-- A button that goes back to the handler made from its name does not get it. -/
theorem not_forall_handlerName? : ¬ ∀ (s : Scene) (text : List Char) (cs : List Candidate)
    (es : List (ℕ × Event)) (index : ℕ) (handler : List Char), s.Sound →
    candidatesOf text = .ok cs → eventsOf text = .ok es →
    CallsHandler (bindingsOf (Text.lines text)) es index handler → ∃ d e,
      (s.reconcile (IdSource.allocate 6) cs (IdSource.ofGiven [])).1.decisions[index]? = some d ∧
      (s.reconcile (IdSource.allocate 6) cs
        (IdSource.ofGiven [])).1.scene.elements.get? d.id = some e ∧
      e.handlerName? = some handler := by
  intro h
  obtain ⟨cs, hcs, hdecisions, hhandler⟩ := exists_candidatesOf_goScript
  obtain ⟨d, e, hd, he, hname⟩ := h customButton goScript cs goEvents 0 "onGoPress".toList
    sound_customButton hcs eventsOf_goScript callsHandler_goEvents
  have hid : d.id = "a" := by
    have hmem := List.mem_map_of_mem (f := Decision.id) (List.mem_of_getElem? hd)
    rw [hdecisions] at hmem
    exact List.mem_singleton.1 hmem
  rw [← hid, he] at hhandler
  exact absurd (hname.symm.trans hhandler) (by decide)

end Scene

end SceneScript
