import SceneScript.Proofs.Json.Reading
import SceneScript.Proofs.Scene.Document
import SceneScript.Proofs.Script.Layout
import SceneScript.Proofs.Script.Legible
import SceneScript.Proofs.Script.Segment
import SceneScript.Proofs.Script.Writable

/-!
# Exporting documents that pass

A document that passes loads, but its script need not be written: a text may be stored under a prop
that is written as a number, since only the keys of props are looked at, and that their values are
texts, numbers or null. Nothing else stands in the way.

Main statement: of a document that passes and has finite numbers, the script can be written, and any
script with legible markers be patched with it, exactly when the texts stored under its props can be
written where they are (`Scene.exists_export`).
-/

namespace SceneScript

open Validation

/-! ## Blocks -/

section Blocks

variable {es : List Element}
  (hes : ∀ e ∈ es, ∀ indent, (∃ block, e.block indent = .ok block) ↔ e.Writable)

include hes

theorem exists_blocksOf_iff (indent : List Char) :
    (∃ blocks, blocksOf indent es = .ok blocks) ↔ ∀ e ∈ es, e.Writable := by
  rw [← forall₂_congr fun e he => hes e he indent, ← exists_mapM_eq_ok, blocksOf,
    exists_bind_eq_ok]
  exact exists_congr fun blocks => and_iff_left ⟨_, rfl⟩

theorem exists_addBlocks_iff (ls : List Line) :
    (∃ ls', addBlocks ls es = .ok ls') ↔ ∀ e ∈ es, e.Writable := by
  unfold addBlocks
  split
  · next hempty =>
    rw [List.isEmpty_iff] at hempty
    exact iff_of_true ⟨ls, rfl⟩ (by simp [hempty])
  · split
    · rw [exists_map_eq_ok, exists_blocksOf_iff hes]
    · rw [exists_map_eq_ok, exists_blocksOf_iff hes]

end Blocks

theorem exists_block_of_blocksOf {indent : List Char} {es : List Element} {blocks : List Line}
    (h : blocksOf indent es = .ok blocks) :
    ∀ e ∈ es, ∃ indent block, e.block indent = .ok block := by
  intro e he
  obtain ⟨written, hwritten, -⟩ := bind_eq_ok.1 h
  obtain ⟨block, -, hblock⟩ := exists_of_mem_left (mapM_eq_ok_iff.1 hwritten) he
  exact ⟨indent, block, hblock⟩

/-- Where blocks are added, each of them has been written. -/
theorem exists_block_of_addBlocks {ls ls' : List Line} {es : List Element}
    (h : addBlocks ls es = .ok ls') :
    ∀ e ∈ es, ∃ indent block, e.block indent = .ok block := by
  unfold addBlocks at h
  split at h
  · next hempty =>
    rw [List.isEmpty_iff.1 hempty]
    exact List.forall_mem_nil _
  · split at h
    · obtain ⟨blocks, hblocks, -⟩ := map_eq_ok.1 h
      exact exists_block_of_blocksOf hblocks
    · obtain ⟨blocks, hblocks, -⟩ := map_eq_ok.1 h
      exact exists_block_of_blocksOf hblocks

/-! ## Scripts of scenes -/

namespace Scene

/-- All numbers of a scene are finite. -/
def Finite (s : Scene) : Prop := ∀ entry ∈ s.elements.entries, entry.2.Finite

/-- The texts that the elements of a scene store can be written where they are. -/
def Writable (s : Scene) : Prop := ∀ entry ∈ s.elements.entries, entry.2.Writable

variable {s : Scene}

theorem exists_replaceBlocks
    (h : ∀ entry ∈ s.elements.entries, ∀ indent, ∃ block, entry.2.block indent = .ok block)
    (placed : List String) (parts : List Segment) :
    ∃ r, s.replaceBlocks placed parts = .ok r := by
  induction parts generalizing placed with
  | nil => exact ⟨_, rfl⟩
  | cons part parts ih =>
    cases part with
    | line l =>
      obtain ⟨r, hr⟩ := ih placed
      exact exists_bind_eq_ok.2 ⟨r, hr, _, rfl⟩
    | block id marker region =>
      rw [replaceBlocks]
      split
      · next e he hplaced =>
        obtain ⟨block, hblock⟩ := h _ (Table.mem_of_get? he) (Text.indentOf marker)
        obtain ⟨r, hr⟩ := ih (id :: placed)
        exact exists_bind_eq_ok.2 ⟨block, hblock, exists_bind_eq_ok.2 ⟨r, hr, _, rfl⟩⟩
      · exact ih placed

/-- The blocks of the elements that are placed have been written. -/
theorem exists_block_of_replaceBlocks {placed placed' : List String} {parts : List Segment}
    {ls : List Line} (h : s.replaceBlocks placed parts = .ok (ls, placed')) :
    ∀ id ∈ placed', id ∈ placed ∨ ∃ e indent block,
      s.elements.get? id = some e ∧ e.block indent = .ok block := by
  induction parts generalizing placed ls with
  | nil =>
    obtain ⟨-, rfl⟩ := Prod.mk.inj (Except.ok.inj h)
    exact fun id hid => .inl hid
  | cons part parts ih =>
    cases part with
    | line l =>
      obtain ⟨r, hr, heq⟩ := bind_eq_ok.1 h
      obtain ⟨-, rfl⟩ := Prod.mk.inj (Except.ok.inj heq)
      exact ih hr
    | block id marker region =>
      rw [replaceBlocks] at h
      split at h
      · next e he hplaced =>
        obtain ⟨block, hblock, h⟩ := bind_eq_ok.1 h
        obtain ⟨r, hr, heq⟩ := bind_eq_ok.1 h
        obtain ⟨-, rfl⟩ := Prod.mk.inj (Except.ok.inj heq)
        intro id' hid'
        rcases ih hr id' hid' with hmem | hwritten
        · rcases List.mem_cons.1 hmem with rfl | hmem
          · exact .inr ⟨e, _, block, he, hblock⟩
          · exact .inl hmem
        · exact .inr hwritten
      · exact ih h

theorem Consistent.mem_orderedElements_iff (h : s.Consistent) {e : Element} :
    e ∈ s.orderedElements ↔ (e.id, e) ∈ s.elements.entries := by
  rw [orderedElements, List.mem_filterMap]
  constructor
  · rintro ⟨key, -, hget⟩
    have hmem := Table.mem_of_get? hget
    exact h.keys _ hmem ▸ hmem
  · intro hmem
    exact ⟨e.id, h.order.mem_iff.2 (List.mem_map_of_mem hmem), Table.get?_eq_some_iff.2 hmem⟩

theorem Consistent.writable_iff (h : s.Consistent) :
    s.Writable ↔ ∀ e ∈ s.orderedElements, e.Writable := by
  constructor
  · exact fun hall e he => hall _ (h.mem_orderedElements_iff.1 he)
  · rintro hall ⟨key, e⟩ hentry
    obtain rfl : e.id = key := h.keys _ hentry
    exact hall e (h.mem_orderedElements_iff.2 hentry)

/-- Where a script is patched, the blocks of all elements have been written: in the place of those
that the script has, or added to it. -/
theorem Consistent.exists_block_of_patchSegments (h : s.Consistent) {parts : List Segment}
    {ls : List Line} (hpatch : s.patchSegments parts = .ok ls) :
    ∀ e ∈ s.orderedElements, ∃ indent block, e.block indent = .ok block := by
  obtain ⟨⟨lines, placed⟩, hreplace, hrest⟩ := bind_eq_ok.1 hpatch
  obtain ⟨added, hadd, -⟩ := bind_eq_ok.1 hrest
  intro e he
  by_cases hplaced : e.id ∈ placed
  · rcases exists_block_of_replaceBlocks hreplace e.id hplaced with
      hnone | ⟨e', indent, block, hget, hok⟩
    · cases hnone
    · have hmem := h.mem_orderedElements_iff.1 he
      obtain rfl : e = e' := Option.some.inj ((Table.get?_eq_some_iff.2 hmem).symm.trans hget)
      exact ⟨indent, block, hok⟩
  · exact exists_block_of_addBlocks hadd e (List.mem_filter.2 ⟨he, by simpa using hplaced⟩)

namespace Valid

variable (h : s.Valid) (hfinite : s.Finite)

include h hfinite

theorem exists_block_iff_of_mem {e : Element} (he : e ∈ s.orderedElements) (indent : List Char) :
    (∃ block, e.block indent = .ok block) ↔ e.Writable := by
  have hmem := h.toConsistent.mem_orderedElements_iff.1 he
  exact (h.elements _ hmem).exists_block_iff (hfinite _ hmem) indent

/-- The script of a scene is written exactly when all of its blocks can be. -/
theorem exists_script_iff : (∃ code, s.script = .ok code) ↔ s.Writable := by
  have hblocks := exists_blocksOf_iff (fun e he => h.exists_block_iff_of_mem hfinite he)
    (indentStep ++ indentStep)
  rw [h.writable_iff, ← hblocks, script, scriptLines, exists_bind_eq_ok]
  constructor
  · rintro ⟨ls, hls, -⟩
    obtain ⟨blocks, hblocks, -⟩ := bind_eq_ok.1 hls
    exact ⟨blocks, hblocks⟩
  · rintro ⟨blocks, hblocks⟩
    exact ⟨_, bind_eq_ok.2 ⟨blocks, hblocks, rfl⟩, _, rfl⟩

theorem exists_patchSegments_iff (parts : List Segment) :
    (∃ ls, s.patchSegments parts = .ok ls) ↔ s.Writable := by
  have hadd : ∀ (ls : List Line) (placed : List String),
      (∃ ls', addBlocks ls (s.orderedElements.filter fun e => !placed.contains e.id) = .ok ls') ↔
        ∀ e ∈ s.orderedElements.filter (fun e => !placed.contains e.id), e.Writable :=
    fun ls placed => exists_addBlocks_iff
      (fun e he => h.exists_block_iff_of_mem hfinite (List.mem_of_mem_filter he)) ls
  constructor
  · rintro ⟨ls, hls⟩
    refine h.writable_iff.2 fun e he => ?_
    obtain ⟨indent, hblock⟩ := h.exists_block_of_patchSegments hls e he
    exact (h.exists_block_iff_of_mem hfinite he indent).1 hblock
  · intro hall
    obtain ⟨⟨ls, placed⟩, hreplace⟩ := exists_replaceBlocks (fun entry hentry indent =>
      ((h.elements _ hentry).exists_block_iff (hfinite _ hentry) indent).2 (hall entry hentry))
      [] parts
    obtain ⟨ls', hls'⟩ := (hadd ls placed).2 fun e he =>
      h.writable_iff.1 hall e (List.mem_of_mem_filter he)
    rw [patchSegments]
    exact exists_bind_eq_ok.2 ⟨_, hreplace, exists_bind_eq_ok.2 ⟨ls', hls', _, rfl⟩⟩

/-- A script is patched exactly when all blocks of the scene can be written. -/
theorem exists_patch_iff {text : List Char}
    (htext : ∀ l ∈ (LineBreak.ofText text).lines text, Marker.Legible l) :
    (∃ code, s.patch text = .ok code) ↔ s.Writable := by
  obtain ⟨parts, hparts⟩ := exists_segments _ fun l hl => (htext l hl).exists_read
  cases hany : parts.any Segment.isBlock with
  | true =>
    rw [patch_eq_map_of_block hparts hany, exists_map_eq_ok, h.exists_patchSegments_iff hfinite]
  | false =>
    rw [patch_of_not_block hparts hany, exists_map_eq_ok, h.exists_script_iff hfinite]

end Valid

end Scene

/-! ## Numbers of a document -/

namespace Json

theorem numbers_memberOf_subset (v : Json) (name : String) :
    (memberOf v name).numbers ⊆ v.numbers := by
  unfold memberOf
  cases hmember : v.member? name with
  | none => simp [numbers]
  | some member =>
    cases v with
    | obj members => exact numbers_subset_of_get? hmember
    | null | bool b | num n | str t | arr items => cases hmember

theorem numbers_subset_of_mem_membersOf {v : Json} {member : String × Json}
    (h : member ∈ membersOf v) : member.2.numbers ⊆ v.numbers := by
  cases v with
  | obj members => exact numbers_subset_of_mem h
  | null | bool b | num n | str t | arr items => cases h

end Json

/-- What is read from an object with finite numbers has finite numbers. -/
theorem Element.ReadFrom.finite {members : List (String × Json)} {e : Element}
    (h : e.ReadFrom members) (hfinite : ∀ n ∈ (Json.obj members).numbers, n.Finite) : e.Finite := by
  have hnumber : ∀ {name n}, Entries.get? members name = some (.num n) → n.Finite :=
    fun hname => hfinite _ (Json.numbers_subset_of_get? hname (by simp [Json.numbers]))
  obtain ⟨props, hprops, heq⟩ := h.props
  refine ⟨hnumber h.x, hnumber h.y, hnumber h.w, hnumber h.h, fun prop hprop n hn => ?_⟩
  rw [heq] at hprop
  refine hfinite n (Json.numbers_subset_of_get? hprops ?_)
  exact Json.numbers_subset_of_mem (Table.mem_of_mem_ofList hprop) (by simp [hn, Json.numbers])

namespace Scene

/-! ## Exporting -/

/-- A document that passes loads. If its numbers are finite, the script of the scene can be written,
and any script with legible markers be patched with it, exactly when the texts that its elements
store can be written where they are. -/
theorem exists_export {origin : Json.Origin} {document : Json}
    (hfinite : ∀ n ∈ document.numbers, n.Finite)
    (hpass : (issues origin document).map status = .ok "PASS") :
    ∃ s, ofDocument document = .ok s ∧ ((∃ code, s.script = .ok code) ↔ s.Writable) ∧
      ∀ text, (∀ l ∈ (LineBreak.ofText text).lines text, Marker.Legible l) →
        ((∃ code, s.patch text = .ok code) ↔ s.Writable) := by
  obtain ⟨s, hs, hvalid, hreads⟩ := exists_ofDocument (status_eq_pass.1 hpass)
  have hscene : s.Finite := by
    intro entry hentry
    obtain ⟨raw, hraw, -, members, hmembers, hread, -⟩ := exists_of_mem_right hreads hentry
    refine hread.finite fun n hn => hfinite n ?_
    rw [← hmembers] at hn
    exact Json.numbers_memberOf_subset document "elements"
      (Json.numbers_subset_of_mem_membersOf hraw hn)
  exact ⟨s, hs, hvalid.exists_script_iff hscene, fun text => hvalid.exists_patch_iff hscene⟩

/-- An outline, with a text for how thick it is. -/
def outline (thickness : String) : Scene :=
  empty.add ⟨"a", "rectOutline", "a", 0, 0, 1, 1, Table.ofList [("thickness", .str thickness)]⟩

theorem ofDocument_outline (thickness : String) :
    ofDocument (outline thickness).toDocument = .ok (outline thickness) := rfl

/-- The document of an outline passes, whatever the text is. -/
theorem valid_outline (thickness : String) : (outline thickness).Valid := by
  have helements : (outline thickness).elements.entries = [("a", ⟨"a", "rectOutline", "a", 0, 0, 1,
    1, Table.ofList [("thickness", .str thickness)]⟩)] := rfl
  have hprops : (Table.ofList [("thickness", Json.str thickness)]).entries =
    [("thickness", .str thickness)] := rfl
  have hid : Solid "a" := ⟨['a'], by decide, by decide, .inl rfl⟩
  have hname : Visible "a" := ⟨'a', by decide, by decide⟩
  refine ⟨⟨?_, .refl _, List.nodup_nil, fun id hid => absurd hid List.not_mem_nil⟩, ?_⟩
  · simp [helements]
  · rw [helements, List.forall_mem_singleton]
    refine ⟨⟨hid, ⟨.rectOutline, rfl, rfl⟩, hname, rfl, rfl, ?_⟩, ?_⟩
    · simp [hprops, Json.Storable]
    · rw [hprops, List.forall_mem_singleton]
      exact ⟨_, rfl⟩

theorem finite_outline (thickness : String) :
    ∀ n ∈ (outline thickness).toDocument.numbers, n.Finite := by
  have hnumbers : (outline thickness).toDocument.numbers = [0, 0, 1, 1] := rfl
  have hwhole : ∀ n ∈ ([0, 0, 1, 1] : List Num), n.IsWholeWithin (Nat.pow 2 50) := by decide
  exact hnumbers ▸ fun n hn => (hwhole n hn).finite

/-- An outline that is as thick as a numeral says is exported. -/
theorem exists_export_outline :
    let document := (outline "3").toDocument
    (∀ n ∈ document.numbers, n.Finite) ∧ (issues .text document).map status = .ok "PASS" ∧
      ∃ s, ofDocument document = .ok s ∧ s.Writable ∧ (∃ code, s.script = .ok code) ∧
        ∀ text, (∀ l ∈ (LineBreak.ofText text).lines text, Marker.Legible l) →
          ∃ code, s.patch text = .ok code := by
  intro document
  have hpass : (issues .text document).map status = .ok "PASS" :=
    status_eq_pass.2 (issues_toDocument.2 (valid_outline "3"))
  obtain ⟨s, hs, hscript, hpatch⟩ := exists_export (finite_outline "3") hpass
  obtain rfl : outline "3" = s := Except.ok.inj ((ofDocument_outline "3").symm.trans hs)
  have hcode : ∃ code, (outline "3").script = .ok code := by
    have hwritten : (outline "3").script.toOption.map List.isEmpty = some false := by
      decide +kernel
    exact (exists_of_toOption_map hwritten).imp fun code h => h.1
  have hwritable := hscript.1 hcode
  exact ⟨finite_outline "3", hpass, _, hs, hwritable, hcode, fun text htext =>
    (hpatch text htext).2 hwritable⟩

/-- Not all documents that pass can be exported: a thickness that is no numeral cannot be written as
a number. -/
theorem not_forall_export : ¬ ∀ (origin : Json.Origin) (document : Json),
    (∀ n ∈ document.numbers, n.Finite) → (issues origin document).map status = .ok "PASS" →
    ∃ s, ofDocument document = .ok s ∧ (∃ code, s.script = .ok code) ∧
      ∀ text, (∀ l ∈ (LineBreak.ofText text).lines text, Marker.Legible l) →
        ∃ code, s.patch text = .ok code := by
  intro hall
  obtain ⟨s, hs, ⟨code, hcode⟩, -⟩ := hall .text (outline "abc").toDocument (finite_outline "abc")
    (status_eq_pass.2 (issues_toDocument.2 (valid_outline "abc")))
  obtain rfl : outline "abc" = s := Except.ok.inj ((ofDocument_outline "abc").symm.trans hs)
  have hnone : (outline "abc").script.toOption = none := by decide +kernel
  rw [hcode] at hnone
  cases hnone

end Scene

end SceneScript
