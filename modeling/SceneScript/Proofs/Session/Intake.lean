import SceneScript.Proofs.Merge.Valid
import SceneScript.Proofs.Session.Sound

/-!
# When taking in a script keeps the document valid

Most of what a document has to be is so whatever a script says. What is left are the sizes, which
may be negative, and the names on markers, which may be blank.

Main statement: after a script is taken in, the document of the scene passes exactly when every
candidate of the script is fair (`Session.status_ingest`).
-/

namespace SceneScript.Session

open Validation

/-- A script that is taken in leaves a document that passes exactly when none of its candidates has
a negative size or a blank name. -/
theorem status_ingest {s : Session IdSource} {origin : Json.Origin}
    (hallocator : s.allocator = IdSource.allocate s.config.idLength)
    (hlength : IdSource.Leaves s.config.idLength) (hids : s.ids.Hexadecimal)
    (hpass : (issues origin s.scene.toDocument).map status = .ok "PASS") {text : List Char}
    {cs : List Candidate} (hcs : candidatesOf text = .ok cs) :
    (∃ decisions, (s.ingest text false).1 = .ok (.decided decisions)) ∧
      ∀ regenerate,
        ((issues origin (s.ingest text regenerate).2.scene.toDocument).map status = .ok "PASS" ↔
          ∀ c ∈ cs, c.Fair) := by
  have htakeIn : s.takeIn text =
      (.ok (.decided (s.scene.reconcile s.allocator cs s.ids).1.decisions),
        { s with
          scene := (s.scene.reconcile s.allocator cs s.ids).1.scene
          code := text
          decisions := (s.scene.reconcile s.allocator cs s.ids).1.decisions
          ids := (s.scene.reconcile s.allocator cs s.ids).2 }) := by
    rw [takeIn, hcs]
  refine ⟨⟨_, congrArg Prod.fst htakeIn⟩, fun regenerate => ?_⟩
  rw [status_eq_pass, Scene.issues_toDocument] at hpass
  rw [status_eq_pass, Scene.issues_toDocument, scene_ingest, htakeIn, hallocator]
  exact hpass.reconcile_iff (IdSource.fresh_allocate _) (IdSource.handsOut_allocate hlength) hcs
    hids

/-- The panel in a script, with a negative width. -/
def thinScript : List Char :=
  "--TDGUI id=a name=Panel type=rect w=-3 h=2\nUiPush()\nUiRect(3, 2)\nUiPop()\n".toList

theorem exists_candidatesOf_thinScript :
    ∃ cs, candidatesOf thinScript = .ok cs ∧ ∃ c ∈ cs, c.w = .int (-3) := by
  have hcs : (candidatesOf thinScript).toOption.map (List.map Candidate.w) = some [.int (-3)] := by
    decide +kernel
  obtain ⟨cs, hcs, hwidths⟩ := exists_of_toOption_map hcs
  exact ⟨cs, hcs, List.mem_map.1 (hwidths ▸ List.mem_singleton_self _)⟩

/-- The document of a panel and a title passes no more when the script is taken in. -/
theorem status_ingest_thinScript :
    let s := start .default Scene.panelAndTitle none (IdSource.allocate 6) (IdSource.ofGiven [])
    (issues .memory s.scene.toDocument).map status = .ok "PASS" ∧
      ∀ regenerate,
        (issues .memory (s.ingest thinScript regenerate).2.scene.toDocument).map status ≠
          .ok "PASS" := by
  have hpass : (issues .memory Scene.panelAndTitle.toDocument).map status = .ok "PASS" :=
    status_eq_pass.2 (Scene.issues_toDocument.2 Scene.valid_panelAndTitle)
  obtain ⟨cs, hcs, c, hc, hw⟩ := exists_candidatesOf_thinScript
  obtain ⟨-, hiff⟩ := status_ingest
    (s := start .default Scene.panelAndTitle none (IdSource.allocate 6) (IdSource.ofGiven []))
    rfl (by decide) (by decide) hpass hcs
  refine ⟨hpass, fun regenerate h => ?_⟩
  have hle := ((hiff regenerate).1 h c hc).w
  rw [hw] at hle
  exact absurd hle (by decide)

end SceneScript.Session
