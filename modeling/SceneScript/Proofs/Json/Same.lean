import Mathlib.Data.List.Nodup
import SceneScript.Proofs.Json.Reading

/-!
# Values but for the order of their members

Two values are the same when one can be made of the other by putting members into another order,
anywhere inside (`Json.Same`). Objects are told apart by what they have under each name, as long as
no name comes twice, so a list of members is known by its look-ups (`Entries.perm_of_get?`).
-/

namespace SceneScript

/-! ## Entries -/

/-- Entries with distinct keys are known, but for their order, by what is under each key. -/
theorem Entries.perm_of_get? {α : Type} {entries expected : List (String × α)}
    (hentries : (keys entries).Nodup) (hexpected : (keys expected).Nodup)
    (hget : ∀ e ∈ expected, get? entries e.1 = some e.2)
    (hclosed : ∀ e ∈ entries, e.1 ∈ keys expected) : entries.Perm expected := by
  refine (List.perm_ext_iff_of_nodup (List.Nodup.of_map Prod.fst hentries)
    (List.Nodup.of_map Prod.fst hexpected)).2 fun e => ⟨fun he => ?_,
    fun he => mem_of_get? (hget e he)⟩
  obtain ⟨e', he', hkey⟩ := List.mem_map.1 (hclosed e he)
  have hvalue : e'.2 = e.2 := by
    have hget' := hget e' he'
    rw [hkey, get?_of_mem hentries he] at hget'
    exact (Option.some.inj hget').symm
  rwa [← Prod.ext hkey hvalue]

namespace Json

/-! ## The order of members -/

/-- Values that differ in the order of members alone, anywhere inside. -/
inductive Same : Json → Json → Prop
  | refl (v : Json) : Same v v
  | trans {u v w : Json} (huv : Same u v) (hvw : Same v w) : Same u w
  | members {ms ns : List (String × Json)} (h : ms.Perm ns) : Same (.obj ms) (.obj ns)
  | member (ms ns : List (String × Json)) (name : String) {v w : Json} (h : Same v w) :
      Same (.obj (ms ++ (name, v) :: ns)) (.obj (ms ++ (name, w) :: ns))
  | item (vs ws : List Json) {v w : Json} (h : Same v w) :
      Same (.arr (vs ++ v :: ws)) (.arr (vs ++ w :: ws))

theorem Same.symm {v w : Json} (h : Same v w) : Same w v := by
  induction h with
  | refl v => exact .refl v
  | trans _ _ ih₁ ih₂ => exact .trans ih₂ ih₁
  | members h => exact .members h.symm
  | member ms ns name _ ih => exact .member ms ns name ih
  | item vs ws _ ih => exact .item vs ws ih

/-- Members with the same value under each name make the same object. -/
theorem Same.obj_of_forall₂ {ms ns : List (String × Json)}
    (h : List.Forall₂ (fun m n => m.1 = n.1 ∧ Same m.2 n.2) ms ns) : Same (.obj ms) (.obj ns) := by
  have hbehind : ∀ front : List (String × Json),
      Same (.obj (front ++ ms)) (.obj (front ++ ns)) := by
    induction h with
    | nil => exact fun front => .refl _
    | @cons m n ms ns hmn _ ih =>
      intro front
      obtain ⟨name, v⟩ := m
      obtain ⟨_, w⟩ := n
      obtain ⟨rfl, hvw⟩ := hmn
      refine .trans (.member front ms name hvw) ?_
      simpa using ih (front ++ [(name, w)])
  exact hbehind []

end Json

end SceneScript
