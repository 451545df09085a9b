import SceneScript.Proofs.Script.Statement
import SceneScript.Script.Segment

/-!
# Regions

Whether a region goes on depends only on how many blocks are open, so counting goes on over appended
statements (`openAfter_append`), and a region over appended lines that leave a block open
(`region?_append_of_openAfter`). A region ends where the count does, and starts, past blank lines,
with a statement that opens a block; what follows it does not matter (`IsRegion`, `IsLeading`).
Where there is none, lines that close all blocks that they open make none (`leadingRegion?_insert`).
-/

namespace SceneScript

open Lua Text

/-! ## Open blocks -/

theorem openAfter_append (depth : ℕ) (σs τs : List (List Char)) :
    openAfter depth (σs ++ τs) = (openAfter depth σs).bind (openAfter · τs) := by
  induction σs generalizing depth with
  | nil => rfl
  | cons σ σs ih =>
    rw [List.cons_append, openAfter, openAfter]
    split
    · exact ih _
    · split
      · split
        · rfl
        · exact ih _
      · exact ih _

/-- Inert statements leave the number of open blocks as it is. -/
theorem openAfter_of_inert {depth : ℕ} {σs : List (List Char)} (h : ∀ σ ∈ σs, Inert σ) :
    openAfter depth σs = some depth := by
  induction σs with
  | nil => rfl
  | cons σ σs ih =>
    have hσ := h σ List.mem_cons_self
    rw [openAfter, hσ.opens, hσ.closes]
    exact ih fun τ hτ => h τ (List.mem_cons_of_mem _ hτ)

/-! ## Regions -/

/-- A region goes past lines that leave a block open. -/
theorem region?_append_of_openAfter {depth depth' : ℕ} {a : List Line}
    (h : openAfter depth (a.flatMap Lua.statements) = some depth') (ls : List Line) :
    region? depth (a ++ ls) = (region? depth' ls).map fun r => (a ++ r.1, r.2) := by
  induction a generalizing depth with
  | nil =>
    obtain rfl := Option.some.inj h
    simp
  | cons l a ih =>
    rw [List.flatMap_cons, openAfter_append] at h
    obtain ⟨d, hd, h⟩ := Option.bind_eq_some_iff.1 h
    rw [List.cons_append, region?, hd]
    dsimp only
    rw [ih h, Option.map_map]
    rfl

/-- That some lines are a region: the last of some open blocks is closed on the last line. -/
def IsRegion (depth : ℕ) (region : List Line) : Prop :=
  ∃ inner closing depth', region = inner ++ [closing] ∧
    openAfter depth (inner.flatMap Lua.statements) = some depth' ∧
    openAfter depth' (Lua.statements closing) = none

theorem region?_append_of_isRegion {depth : ℕ} {region : List Line} (h : IsRegion depth region)
    (rest : List Line) : region? depth (region ++ rest) = some (region, rest) := by
  obtain ⟨inner, closing, depth', rfl, hinner, hclosing⟩ := h
  rw [List.append_assoc, region?_append_of_openAfter hinner, List.singleton_append, region?,
    hclosing]
  rfl

theorem isRegion_of_region? {depth : ℕ} {ls region rest : List Line}
    (h : region? depth ls = some (region, rest)) : IsRegion depth region := by
  induction ls generalizing depth region with
  | nil => simp [region?] at h
  | cons l ls ih =>
    rw [region?] at h
    split at h
    · next hclosed =>
      obtain ⟨rfl, rfl⟩ := Prod.mk.inj (Option.some.inj h)
      exact ⟨[], l, depth, rfl, rfl, hclosed⟩
    · next d hd =>
      obtain ⟨r, hr, heq⟩ := Option.map_eq_some_iff.1 h
      obtain ⟨rfl, rfl⟩ := Prod.mk.inj heq
      obtain ⟨inner, closing, depth', hregion, hinner, hclosing⟩ := ih hr
      refine ⟨l :: inner, closing, depth', by rw [hregion, List.cons_append], ?_, hclosing⟩
      rw [List.flatMap_cons, openAfter_append, hd]
      exact hinner

/-- The last open block is closed in a region. -/
theorem IsRegion.openAfter_eq {depth : ℕ} {region : List Line} (h : IsRegion depth region) :
    openAfter depth (region.flatMap Lua.statements) = none := by
  obtain ⟨inner, closing, depth', rfl, hinner, hclosing⟩ := h
  rw [List.flatMap_append, openAfter_append, hinner, List.flatMap_singleton]
  exact hclosing

/-! ## Leading regions -/

theorem exists_of_startsRegion {l : Line} (h : startsRegion l = true) :
    ∃ σ σs, Lua.statements l = σ :: σs ∧ opensBlock σ = true := by
  unfold startsRegion at h
  cases hl : Lua.statements l with
  | nil => simp [hl] at h
  | cons σ σs =>
    rw [hl] at h
    exact ⟨σ, σs, rfl, h⟩

theorem not_isBlankText_of_startsRegion {l : Line} (h : startsRegion l = true) :
    isBlankText l = false := by
  obtain ⟨σ, σs, hl, -⟩ := exists_of_startsRegion h
  refine Bool.eq_false_iff.2 fun hblank => ?_
  rw [statements_of_blank hblank] at hl
  cases hl

theorem leadingRegion?_cons {l : Line} (h : startsRegion l = true) (ls : List Line) :
    leadingRegion? (l :: ls) = region? 0 (l :: ls) := by
  rw [leadingRegion?, not_isBlankText_of_startsRegion h, h]
  rfl

/-- That some lines are a region behind blank lines, which starts with a line that opens a block. -/
def IsLeading (region : List Line) : Prop :=
  ∃ blanks opening behind, region = blanks ++ opening :: behind ∧
    (∀ b ∈ blanks, isBlankText b = true) ∧ startsRegion opening = true ∧
    IsRegion 0 (opening :: behind)

/-- A leading region is looked for past blank lines. -/
theorem leadingRegion?_append_of_blank {blanks : List Line}
    (h : ∀ b ∈ blanks, isBlankText b = true) (ls : List Line) :
    leadingRegion? (blanks ++ ls) = (leadingRegion? ls).map fun r => (blanks ++ r.1, r.2) := by
  induction blanks with
  | nil => simp
  | cons b blanks ih =>
    rw [List.forall_mem_cons] at h
    rw [List.cons_append, leadingRegion?, if_pos h.1, ih h.2, Option.map_map]
    rfl

/-- A leading region is found, whatever lines follow it. -/
theorem leadingRegion?_append_of_isLeading {region : List Line} (h : IsLeading region)
    (rest : List Line) : leadingRegion? (region ++ rest) = some (region, rest) := by
  obtain ⟨blanks, opening, behind, rfl, hblanks, hstarts, hregion⟩ := h
  rw [List.append_assoc, leadingRegion?_append_of_blank hblanks, List.cons_append,
    leadingRegion?_cons hstarts, ← List.cons_append, region?_append_of_isRegion hregion]
  rfl

theorem isLeading_of_leadingRegion? {ls region rest : List Line}
    (h : leadingRegion? ls = some (region, rest)) : IsLeading region := by
  induction ls generalizing region with
  | nil => simp [leadingRegion?] at h
  | cons l ls ih =>
    rw [leadingRegion?] at h
    split at h
    · next hblank =>
      obtain ⟨r, hr, heq⟩ := Option.map_eq_some_iff.1 h
      obtain ⟨rfl, rfl⟩ := Prod.mk.inj heq
      obtain ⟨blanks, opening, behind, hregion, hblanks, hstarts⟩ := ih hr
      refine ⟨l :: blanks, opening, behind, by rw [hregion, List.cons_append], ?_, hstarts⟩
      exact List.forall_mem_cons.2 ⟨hblank, hblanks⟩
    · split at h
      · next hstarts =>
        have hregion := isRegion_of_region? h
        -- the region starts with the line on which it is looked for
        obtain ⟨behind, rfl⟩ : ∃ behind, region = l :: behind := by
          cases region with
          | nil =>
            obtain ⟨inner, closing, -, hnil, -⟩ := hregion
            exact absurd hnil (by simp)
          | cons k behind => exact ⟨behind, by rw [(List.cons.inj (append_of_region? h)).1]⟩
        exact ⟨[], l, behind, rfl, by simp, hstarts, hregion⟩
      · exact absurd h (by simp)

/-- A region ends on a line with statements. -/
theorem IsRegion.exists_last {depth : ℕ} {region : List Line} (h : IsRegion depth region) :
    ∃ front l, region = front ++ [l] ∧ Lua.statements l ≠ [] := by
  obtain ⟨inner, closing, depth', rfl, -, hclosing⟩ := h
  refine ⟨inner, closing, rfl, fun hnil => ?_⟩
  rw [hnil] at hclosing
  cases hclosing

theorem IsLeading.exists_last {region : List Line} (h : IsLeading region) :
    ∃ front l, region = front ++ [l] ∧ Lua.statements l ≠ [] := by
  obtain ⟨blanks, opening, behind, rfl, -, -, hregion⟩ := h
  obtain ⟨front, l, heq, hl⟩ := hregion.exists_last
  exact ⟨blanks ++ front, l, by rw [heq, List.append_assoc], hl⟩

/-! ## Lines put in -/

/-- A block stays open where the last one is not closed. -/
theorem one_le_of_openAfter {depth depth' : ℕ} {σs : List (List Char)} (hdepth : 1 ≤ depth)
    (h : openAfter depth σs = some depth') : 1 ≤ depth' := by
  induction σs generalizing depth with
  | nil => exact Option.some.inj h ▸ hdepth
  | cons σ σs ih =>
    rw [openAfter] at h
    split at h
    · exact ih (by omega) h
    · split at h
      · split at h
        · cases h
        · exact ih (by omega) h
      · exact ih hdepth h

theorem region?_eq_none_iff {depth : ℕ} {ls : List Line} : region? depth ls = none ↔
    ∃ depth', openAfter depth (ls.flatMap Lua.statements) = some depth' := by
  induction ls generalizing depth with
  | nil => exact ⟨fun _ => ⟨depth, rfl⟩, fun _ => rfl⟩
  | cons l ls ih =>
    rw [region?, List.flatMap_cons, openAfter_append]
    cases openAfter depth (Lua.statements l) with
    | none => simp
    | some d => simpa using @ih d

/-- Lines that can be put in anywhere: they do not start with a region, and every block that they
open is closed in them. -/
structure Filler (new : List Line) : Prop where
  head : ∀ l ∈ new.head?, isBlankText l = false ∧ startsRegion l = false
  balanced : ∀ depth, 1 ≤ depth → openAfter depth (new.flatMap Lua.statements) = some depth

theorem filler_nil : Filler [] := ⟨by simp, fun _ _ => rfl⟩

theorem Filler.append {a b : List Line} (ha : Filler a) (hb : Filler b) : Filler (a ++ b) := by
  refine ⟨fun l hl => ?_, fun depth hdepth => ?_⟩
  · cases a with
    | nil => exact hb.head l hl
    | cons k a => exact ha.head l hl
  · rw [List.flatMap_append, openAfter_append, ha.balanced depth hdepth]
    exact hb.balanced depth hdepth

/-- Where no region is found, none is found with lines put in. -/
theorem leadingRegion?_insert {a c new : List Line} (h : leadingRegion? (a ++ c) = none)
    (hnew : Filler new) : leadingRegion? (a ++ new ++ c) = none := by
  induction a with
  | nil =>
    cases new with
    | nil => exact h
    | cons l new =>
      obtain ⟨hblank, hstarts⟩ := hnew.head l rfl
      rw [List.nil_append, List.cons_append, leadingRegion?, hblank, hstarts]
      rfl
  | cons k a ih =>
    by_cases hblank : isBlankText k = true
    · rw [List.cons_append, leadingRegion?, if_pos hblank, Option.map_eq_none_iff] at h
      rw [List.cons_append, List.cons_append, leadingRegion?, if_pos hblank, ih h]
      rfl
    · by_cases hstarts : startsRegion k = true
      · rw [List.cons_append, leadingRegion?_cons hstarts, ← List.cons_append,
          region?_eq_none_iff] at h
        rw [List.append_assoc, List.cons_append, leadingRegion?_cons hstarts, ← List.cons_append,
          region?_eq_none_iff]
        obtain ⟨d, hd⟩ := h
        rw [List.flatMap_append, openAfter_append] at hd
        obtain ⟨d', ha, hc⟩ := Option.bind_eq_some_iff.1 hd
        -- the block that the first line opens is still open where the lines are put in
        have hopen : 1 ≤ d' := by
          obtain ⟨σ, σs, hσ, hopens⟩ := exists_of_startsRegion hstarts
          rw [List.flatMap_cons, hσ, List.cons_append, openAfter, if_pos hopens] at ha
          exact one_le_of_openAfter le_rfl ha
        refine ⟨d, ?_⟩
        rw [List.flatMap_append, openAfter_append, ha, Option.bind_some, List.flatMap_append,
          openAfter_append, hnew.balanced d' hopen]
        exact hc
      · rw [List.cons_append, List.cons_append, leadingRegion?, if_neg hblank, if_neg hstarts]

/-! ## Owned blocks -/

theorem ownedBlock?_eq_some_iff {marker? : Option Marker} {ls region rest : List Line}
    {id : String} : ownedBlock? marker? ls = some (id, region, rest) ↔
      Marker.owner? marker? = some id ∧ leadingRegion? ls = some (region, rest) := by
  unfold ownedBlock?
  split
  · next id' region' rest' hid hregion =>
    rw [hid, hregion]
    simp
  · next hnone =>
    refine ⟨fun h => absurd h (by simp), ?_⟩
    rintro ⟨hid, hregion⟩
    exact absurd hregion (hnone id region rest hid)

end SceneScript
