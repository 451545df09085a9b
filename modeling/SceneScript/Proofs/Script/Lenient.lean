import SceneScript.Proofs.Script.Legible
import SceneScript.Proofs.Script.Trail

/-!
# How lenient reading is

A text that has no run of too many digits is read, whatever it says: a statement that is not
recognised makes no candidate, a marker that is malformed is none, and what cannot be read of a
statement has its default. Only the moves can make it fail, where a whole number too large for
binary64 is added to a binary64 one.

Main statement: which texts are read, and what is read of them (`exists_candidatesOf_iff`).
-/

namespace SceneScript

open Lua Text

/-- A text without a run of too many digits has its candidates exactly if wherever the text stands
the moves that lead there can be added up, and fails in one way otherwise. The candidates are sound,
one for each recognised statement in a block, with defaults for what the statement does not tell. -/
theorem exists_candidatesOf_iff {text : List Char} (h : RunsWithin digitLimit text) :
    ∃ es, eventsOf text = .ok es ∧
      ((∃ cs, candidatesOf text = .ok cs) ↔
        ∀ before, before <+: es →
          Addable (trailOf (bindingsOf (Text.lines text)) before).current) ∧
      (∀ error, candidatesOf text = .error error → error = .integerTooLarge) ∧
      ∀ cs, candidatesOf text = .ok cs → (∀ c ∈ cs, c.Sound) ∧
        List.Forall₂ (Mention.Tells (bindingsOf (Text.lines text)))
          (mentionsOf (bindingsOf (Text.lines text)) es) cs := by
  obtain ⟨es, hes, hcandidates⟩ := exists_eventsOf fun l hl =>
    Marker.legible_of_runsWithin (h.of_isInfix (infix_of_mem_lines hl))
  refine ⟨es, hes, ?_⟩
  rcases (ReaderState.tracks_start (bindingsOf (Text.lines text))).handleAll es with
    ⟨r, hr, htracks, hall⟩ | ⟨herror, before, hbefore, hadd⟩
  · have hcs : candidatesOf text = .ok r.found.reverse := by
      rw [hcandidates, hr]
      rfl
    refine ⟨iff_of_true ⟨_, hcs⟩ hall, fun error he => ?_, fun cs hcs' => ?_⟩
    · rw [hcs] at he
      cases he
    · obtain rfl := Except.ok.inj (hcs.symm.trans hcs')
      refine ⟨sound_of_candidatesOf hcs, List.forall₂_reverse_iff.1 ?_⟩
      rw [List.reverse_reverse]
      exact htracks.found
  · have hfails : candidatesOf text = .error .integerTooLarge := by
      rw [hcandidates, herror]
      rfl
    refine ⟨iff_of_false ?_ fun hall => hadd (hall before hbefore), fun error he => ?_,
      fun cs hcs => ?_⟩
    · rintro ⟨cs, hcs⟩
      rw [hfails] at hcs
      cases hcs
    · exact (Except.error.inj (hfails.symm.trans he)).symm
    · rw [hfails] at hcs
      cases hcs

/-- A script with a marker that is none, a statement that is not recognised, an argument that stands
for nothing and one that is missing. -/
def sloppyScript : List Char :=
  Text.join ['\n'] (["--TDGUI w=7", "UiPush()", "UiTranslate(1, 0.5)", "UiTranslate(left, 2)",
    "UiGlow(3)", "UiImageBox(path, 30)", "UiPop()"].map String.toList)

theorem exists_candidatesOf_iff_sloppyScript :
    RunsWithin digitLimit sloppyScript ∧
    ∃ es, eventsOf sloppyScript = .ok es ∧
      ((∃ cs, candidatesOf sloppyScript = .ok cs) ↔
        ∀ before, before <+: es →
          Addable (trailOf (bindingsOf (Text.lines sloppyScript)) before).current) ∧
      (∀ error, candidatesOf sloppyScript = .error error → error = .integerTooLarge) ∧
      ∀ cs, candidatesOf sloppyScript = .ok cs → (∀ c ∈ cs, c.Sound) ∧
        List.Forall₂ (Mention.Tells (bindingsOf (Text.lines sloppyScript)))
          (mentionsOf (bindingsOf (Text.lines sloppyScript)) es) cs := by
  have hruns : RunsWithin digitLimit sloppyScript := fun run hrun _ =>
    hrun.length_le.trans (by decide)
  exact ⟨hruns, exists_candidatesOf_iff hruns⟩

example : (candidatesOf sloppyScript).toOption.map (List.map fun c => (c.type, c.w, c.h, c.line)) =
    some [("imageBox", 30, 128, 6)] := by
  decide +kernel

/-- A script that moves far away by a whole number, and then by half a unit. -/
def farScript : List Char :=
  "UiTranslate(".toList ++ List.replicate 400 '9' ++ ", 0)\nUiTranslate(0.5, 0)\n".toList

/-- Not every text without a run of too many digits is read: half a unit cannot be added to a whole
number that is too large. -/
theorem not_forall_exists_candidatesOf :
    ¬ ∀ text, RunsWithin digitLimit text → ∃ cs, candidatesOf text = .ok cs := by
  intro hall
  have hruns : RunsWithin digitLimit farScript := fun run hrun _ =>
    hrun.length_le.trans (by decide +kernel)
  obtain ⟨cs, hcs⟩ := hall farScript hruns
  have hfails : (candidatesOf farScript).toBool = false := by decide +kernel
  rw [hcs] at hfails
  cases hfails

end SceneScript
