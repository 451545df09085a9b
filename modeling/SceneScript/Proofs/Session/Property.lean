import SceneScript.Proofs.Script.Traceable
import SceneScript.Proofs.Session.Sound

/-!
# When a script still tells the elements after an edit of a prop

A prop is accepted by its kind alone, but the variable of a slider and the handlers stand in the
script as they are given. So a text may well be accepted that the script does not read back as what
it was: a variable that is no identifier is no longer assigned, and a handler with a semicolon or a
line break goes on as other statements. Every other text, and every finite number, does no harm.

Main statement: after an edit of a prop with a value that suits its key, the script tells the
elements of a readable scene (`Session.tellsIds_setProperty`).
-/

namespace SceneScript.Session

variable {σ : Type} {s : Session σ}

/-- An edit of a prop with a value that suits its key keeps a scene traceable, also when it is
refused. -/
theorem traceable_setProperty (h : s.scene.Traceable) (id key : String) {value : Json}
    (hvalue : value.SuitsKey key) :
    (s.mutate (.setProperty id key value)).2.scene.Traceable := by
  change (s.edit id fun e => e.setProperty key value).2.scene.Traceable
  unfold Session.edit
  cases hget : s.scene.elements.get? id with
  | none => exact h
  | some e =>
    have hmem := Table.mem_of_get? hget
    have hid : (e.setProperty key value).2.id = id :=
      ((Element.keepsSound_setProperty key value).id e).trans (h.keys _ hmem)
    have hscene : (s.scene.replace id (e.setProperty key value).2).Traceable :=
      h.replace (Table.mem_keys_of_get? hget) hid ((h.elements _ hmem).setProperty hvalue)
    dsimp only
    cases (e.setProperty key value).1 with
    | ok b => exact hscene
    | error err => exact hscene

theorem order_edit (s : Session σ) (key : String) (f : Element → Element.Edited) :
    (s.edit key f).2.scene.order = s.scene.order := by
  unfold Session.edit
  cases s.scene.elements.get? key with
  | none => rfl
  | some e =>
    dsimp only
    cases (f e).1 <;> rfl

/-- Once a prop of a readable scene is edited, with a value that suits its key, the script tells the
elements in the order that they had. This is so whether the edit is accepted or not. -/
theorem tellsIds_setProperty (h : s.scene.Readable) (id key : String) {value : Json}
    (hvalue : value.SuitsKey key) :
    (s.mutate (.setProperty id key value)).2.scene.TellsIds ∧
      (s.mutate (.setProperty id key value)).2.scene.order = s.scene.order :=
  ⟨(traceable_setProperty h.traceable id key hvalue).tellsIds, order_edit s id _⟩

/-- A slider and a button. -/
def volumeAndStart : Session IdSource :=
  start .default ((Scene.empty.add (Element.ofType .slider "volume" 10 20)).add
    (Element.ofType .button "start" 10 60)) none (IdSource.allocate 6) (IdSource.ofGiven [])

theorem readable_volumeAndStart : volumeAndStart.scene.Readable :=
  (Scene.readable_empty.add (Element.readable_ofType rfl (by decide) (by decide) (by decide +kernel)
    (by decide +kernel)) (by decide)).add (Element.readable_ofType rfl (by decide) (by decide)
      (by decide +kernel) (by decide +kernel)) (by decide)

/-- A handler that opens a string and a comment is accepted, and both elements are told. -/
theorem tellsIds_setProperty_openHandler :
    let s' := volumeAndStart.mutate (.setProperty "start" "onPress" (.str "go(\"now) -- later"))
    (Json.str "go(\"now) -- later").SuitsKey "onPress" ∧ s'.1 = .ok (.done true) ∧
      s'.2.scene.TellsIds ∧ s'.2.scene.order = ["volume", "start"] := by
  have hsuits : (Json.str "go(\"now) -- later").SuitsKey "onPress" :=
    ⟨fun hkey => absurd hkey (by decide), fun _ => ⟨by decide +kernel, by decide +kernel⟩⟩
  exact ⟨hsuits, rfl,
    tellsIds_setProperty (s := volumeAndStart) readable_volumeAndStart "start" "onPress" hsuits⟩

/-- Not every value that is accepted is harmless: a variable that is no identifier, a handler with a
semicolon or a line break, and a bound that is too large to be written are none. -/
theorem not_tellsIds_setProperty :
    volumeAndStart.scene.Readable ∧
      ∀ edit ∈ [("volume", "var", Json.str "my volume"),
          ("start", "onPress", Json.str "a; UiRect(1, 1)"),
          ("start", "onPress", Json.str "a\nUiRect(1, 1)"),
          ("volume", "max", Json.num (.int (10 ^ 400)))],
        let s' := volumeAndStart.mutate (.setProperty edit.1 edit.2.1 edit.2.2)
        s'.1 = .ok (.done true) ∧ ¬ s'.2.scene.TellsIds := by
  refine ⟨readable_volumeAndStart, ?_⟩
  simp only [List.forall_mem_cons]
  exact ⟨⟨rfl, by decide +kernel⟩, ⟨rfl, by decide +kernel⟩, ⟨rfl, by decide +kernel⟩,
    ⟨rfl, by decide +kernel⟩, by simp⟩

end SceneScript.Session
