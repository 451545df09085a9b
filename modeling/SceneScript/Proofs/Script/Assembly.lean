import SceneScript.Proofs.Script.Drawable
import SceneScript.Proofs.Script.Idempotent
import SceneScript.Proofs.Script.Noise

/-!
# Patched scripts, put together

A patched script is put together of lines that were there before, of blocks of elements, and of
stubs; new blocks may go into a written block, before its last line. A relation between drawings and
lines is closed under this (`Assembles`) when it holds of single lines of some kind, of blocks
around lines, and of lines behind each other, and does not see an empty last line.

Main statement: such a relation holds of the lines of a patched script, with a drawing for every
element of the scene (`Scene.Readable.exists_assembled_patch`).
-/

namespace SceneScript

open Lua Text ReaderState

/-! ## Line breaks -/

theorem Relaid.refl (ls : List Line) : Relaid ls ls := by
  induction ls with
  | nil => exact .nil
  | cons l ls ih => exact .line rfl ih

/-- Joined lines are read as the lines are, whatever the line break, but for their numbers. -/
theorem unnumbered_candidatesOf_join (b : LineBreak) {ls : List Line} (hls : ∀ l ∈ ls, '\n' ∉ l) :
    (candidatesOf (join b.text ls)).map (·.map Candidate.unnumbered) =
      ((readLines (bindingsOf ls) 1 ReaderState.start ls).map (·.found.reverse)).map
        (·.map Candidate.unnumbered) := by
  by_cases hne : ls = []
  · subst hne
    rfl
  have hlf : candidatesOf (join ['\n'] ls) =
      (readLines (bindingsOf ls) 1 ReaderState.start ls).map (·.found.reverse) := by
    rw [candidatesOf, Text.lines_join hne hls]
    rfl
  rw [← hlf]
  refine unnumbered_candidatesOf_eq ?_
  rw [Text.lines_join hne hls]
  cases b with
  | lf =>
    rw [LineBreak.text, Text.lines_join hne hls]
    exact .refl ls
  | crlf =>
    obtain ⟨front, last, rfl⟩ := (List.eq_nil_or_concat' ls).resolve_left hne
    rw [List.forall_mem_append] at hls
    rw [LineBreak.text, lines_join_crlf (hls.2 last (List.mem_singleton_self last)) hls.1]
    clear hls hlf hne
    induction front with
    | nil => exact .refl [last]
    | cons l front ih => exact .line (trim_append_blank (by decide) l).symm ih

/-- What joined lines are read as, up to the numbers of the lines. -/
theorem exists_readLines_of_join {b : LineBreak} {ls : List Line} (hls : ∀ l ∈ ls, '\n' ∉ l)
    {cs : List Candidate} (hcs : candidatesOf (join b.text ls) = .ok cs) :
    ∃ r, readLines (bindingsOf ls) 1 ReaderState.start ls = .ok r ∧
      r.found.reverse.map Candidate.unnumbered = cs.map Candidate.unnumbered := by
  have hread := unnumbered_candidatesOf_join b hls
  rw [hcs] at hread
  obtain ⟨found, hfound, heq⟩ := map_eq_ok.1 hread.symm
  obtain ⟨r, hr, rfl⟩ := map_eq_ok.1 hfound
  exact ⟨r, hr, heq⟩

/-! ## Relations between drawings and lines -/

/-- That a relation between drawings and lines can be put together from lines of some kind and from
blocks. -/
structure Assembles (Good : Line → Prop) (R : List Drawing → List Line → Prop) : Prop where
  nil : R [] []
  line : ∀ {l : Line}, Good l → R [] [l]
  around : ∀ (d : Drawing) {indent : List Char}, indent.all isBlank = true →
    ∀ {ds : List Drawing} {ls : List Line}, R ds ls →
      R (d :: ds) ((d.lines indent).dropLast ++ ls ++ [indent ++ "UiPop()".toList])
  append : ∀ {ds ds' : List Drawing} {ls ls' : List Line}, R ds ls → R ds' ls' →
    R (ds ++ ds') (ls ++ ls')
  concat_nil_iff : ∀ {ds : List Drawing} {ls : List Line}, R ds (ls ++ [[]]) ↔ R ds ls

namespace Assembles

variable {Good : Line → Prop} {R : List Drawing → List Line → Prop} (hR : Assembles Good R)

include hR

theorem of_forall {ls : List Line} (h : ∀ l ∈ ls, Good l) : R [] ls := by
  induction ls with
  | nil => exact hR.nil
  | cons l ls ih =>
    rw [List.forall_mem_cons] at h
    exact hR.append (hR.line h.1) (ih h.2)

theorem block (d : Drawing) {indent : List Char} (hindent : indent.all isBlank = true) :
    R [d] (d.lines indent) := by
  have h := hR.around d hindent hR.nil
  rwa [List.append_nil, ← d.lines_eq_concat] at h

theorem flatMap {indent : List Char} (hindent : indent.all isBlank = true) (ds : List Drawing) :
    R ds (ds.flatMap fun d => d.lines indent) := by
  induction ds with
  | nil => exact hR.nil
  | cons d ds ih => exact hR.append (hR.block d hindent) ih

/-- Lines can be put in at the end, before an empty last line. -/
theorem appendLines {ds ds' : List Drawing} {ls added : List Line} (h : R ds ls)
    (hadded : R ds' added) : R (ds ++ ds') (appendLines ls added) := by
  rw [SceneScript.appendLines]
  split
  · next hlast =>
    rw [← List.dropLast_append_getLast? [] hlast, hR.concat_nil_iff] at h
    exact hR.concat_nil_iff.2 (hR.append h hadded)
  · exact hR.append h hadded

/-- The whole script of a scene is put together around its blocks. -/
theorem script {ds : List Drawing} {blocks : List Line} (hblocks : R ds blocks)
    (hframe : ∀ l ∈ headerLines ++ footerLines, Good l) {stubs : List Line}
    (hstubs : ∀ l ∈ stubs, Good l) :
    R ds (headerLines ++ blocks ++ footerLines ++ stubs ++ [[]]) := by
  rw [List.forall_mem_append] at hframe
  have hall := hR.append (hR.append (hR.append (hR.of_forall hframe.1) hblocks)
    (hR.of_forall hframe.2)) (hR.of_forall hstubs)
  simp only [List.nil_append, List.append_nil] at hall
  exact hR.concat_nil_iff.2 hall

end Assembles

/-! ## Scripts drawn anew -/

namespace Scene

variable {s : Scene}

/-- That drawings are of elements of the scene, and have some ids. -/
def Draws (s : Scene) (ds : List Drawing) (ids : List String) : Prop :=
  (∀ d ∈ ds, s.elements.get? d.element.id = some d.element) ∧
    (ds.map fun d => d.element.id).Perm ids

theorem Draws.append {ds ds' : List Drawing} {ids ids' : List String} (h : s.Draws ds ids)
    (h' : s.Draws ds' ids') : s.Draws (ds ++ ds') (ids ++ ids') :=
  ⟨List.forall_mem_append.2 ⟨h.1, h'.1⟩, List.map_append ▸ h.2.append h'.2⟩

theorem Draws.trans {ds : List Drawing} {ids ids' : List String} (h : s.Draws ds ids)
    (hperm : ids.Perm ids') : s.Draws ds ids' :=
  ⟨h.1, h.2.trans hperm⟩

section Assembled

variable {Good : Line → Prop} {R : List Drawing → List Line → Prop} (hR : Assembles Good R)

include hR

/-- The segments that a patch leaves are put together with drawings of their owners. -/
theorem exists_drawings_of_leaves {left : List Segment} (hleaves : ∀ part ∈ left, s.Leaves part)
    (hgood : ∀ l ∈ linesOutside left, Good l) :
    ∃ ds, s.Draws ds (ownersOf left) ∧ R ds (left.flatMap Segment.lines) := by
  induction left with
  | nil => exact ⟨[], ⟨by simp, .refl _⟩, hR.nil⟩
  | cons part left ih =>
    rw [List.forall_mem_cons] at hleaves
    rw [List.flatMap_cons]
    cases hleaves.1 with
    | line l =>
      have hgood : ∀ k ∈ l :: linesOutside left, Good k := hgood
      rw [List.forall_mem_cons] at hgood
      obtain ⟨ds, hds, hlines⟩ := ih hleaves.2 hgood.2
      exact ⟨ds, hds, hR.append (hR.line hgood.1) hlines⟩
    | block d blank hget =>
      obtain ⟨ds, hds, hlines⟩ := ih hleaves.2 hgood
      exact ⟨d :: ds, ⟨List.forall_mem_cons.2 ⟨hget, hds.1⟩, hds.2.cons _⟩,
        hR.append (hR.block d blank) hlines⟩

/-- New blocks between such segments add their drawings. -/
theorem exists_drawings_between {a b : List Segment} (hleaves : ∀ part ∈ a ++ b, s.Leaves part)
    (hgood : ∀ l ∈ linesOutside (a ++ b), Good l) {new : List Drawing} {ids : List String}
    (hdraws : s.Draws new ids) {run : List Line} (hrun : R new run) :
    ∃ ds, s.Draws ds (ownersOf (a ++ b) ++ ids) ∧
      R ds (a.flatMap Segment.lines ++ run ++ b.flatMap Segment.lines) := by
  rw [List.forall_mem_append] at hleaves
  rw [linesOutside_append, List.forall_mem_append] at hgood
  obtain ⟨da, hda, hla⟩ := exists_drawings_of_leaves hR hleaves.1 hgood.1
  obtain ⟨db, hdb, hlb⟩ := exists_drawings_of_leaves hR hleaves.2 hgood.2
  refine ⟨_, ((hda.append hdraws).append hdb).trans ?_, hR.append (hR.append hla hrun) hlb⟩
  rw [ownersOf_append, List.append_assoc, List.append_assoc]
  exact List.perm_append_comm.append_left _

/-- So do new blocks before the last line of a written block. -/
theorem exists_drawings_into {a b : List Segment} {d : Drawing} {indent : List Char}
    (hindent : indent.all isBlank = true)
    (hleaves : ∀ part ∈ a ++ d.segment indent :: b, s.Leaves part)
    (hget : s.elements.get? d.element.id = some d.element)
    (hgood : ∀ l ∈ linesOutside (a ++ d.segment indent :: b), Good l) {new : List Drawing}
    {ids : List String} (hdraws : s.Draws new ids) {run : List Line} (hrun : R new run) :
    ∃ ds, s.Draws ds (ownersOf (a ++ d.segment indent :: b) ++ ids) ∧
      R ds (a.flatMap Segment.lines ++ ((d.lines indent).dropLast ++ run ++
        [indent ++ "UiPop()".toList]) ++ b.flatMap Segment.lines) := by
  have houtside : linesOutside (a ++ d.segment indent :: b) = linesOutside a ++ linesOutside b :=
    linesOutside_append a _
  have howners : ownersOf (a ++ d.segment indent :: b) =
      ownersOf a ++ ([d.element.id] ++ ownersOf b) := ownersOf_append a _
  rw [List.forall_mem_append, List.forall_mem_cons] at hleaves
  rw [houtside, List.forall_mem_append] at hgood
  obtain ⟨da, hda, hla⟩ := exists_drawings_of_leaves hR hleaves.1 hgood.1
  obtain ⟨db, hdb, hlb⟩ := exists_drawings_of_leaves hR hleaves.2.2 hgood.2
  have hd : s.Draws [d] [d.element.id] := ⟨by simpa using hget, .refl _⟩
  refine ⟨_, ((hda.append (hd.append hdraws)).append hdb).trans ?_,
    hR.append (hR.append hla (hR.around d hindent hrun)) hlb⟩
  rw [howners]
  simp only [List.append_assoc]
  exact (List.perm_append_comm.append_left _).append_left _

/-- New blocks add their drawings wherever their place is. -/
theorem exists_drawings_of_addBlocks {left : List Segment}
    (hleaves : ∀ part ∈ left, s.Leaves part) (hgood : ∀ l ∈ linesOutside left, Good l)
    {new : List Drawing} (hnew : ∀ d ∈ new, s.elements.get? d.element.id = some d.element)
    {ls : List Line}
    (hadd : addBlocks (left.flatMap Segment.lines) (new.map Drawing.element) = .ok ls) :
    ∃ ds, s.Draws ds (ownersOf left ++ new.map fun d => d.element.id) ∧ R ds ls := by
  have hdraws : s.Draws new (new.map fun d => d.element.id) := ⟨hnew, .refl _⟩
  by_cases hne : new = []
  · subst hne
    obtain rfl := Except.ok.inj hadd
    obtain ⟨ds, hds, hlines⟩ := exists_drawings_of_leaves hR hleaves hgood
    exact ⟨ds, by simpa using hds, hlines⟩
  rw [addBlocks, if_neg (by simpa using hne)] at hadd
  cases hp : insertionPoint? (left.flatMap Segment.lines) with
  | none =>
    rw [hp, Drawing.blocksOf_eq] at hadd
    obtain rfl := Except.ok.inj hadd
    obtain ⟨ds, hds, hlines⟩ := exists_drawings_of_leaves hR hleaves hgood
    exact ⟨ds ++ new, hds.append hdraws, hR.appendLines hlines (hR.flatMap all_isBlank_nil new)⟩
  | some p =>
    rw [hp] at hadd
    dsimp only at hadd
    rw [Drawing.blocksOf_eq] at hadd
    obtain rfl : p.before ++ (new.flatMap fun d => d.lines p.indent) ++ p.after = ls :=
      Except.ok.inj hadd
    have hrun := hR.flatMap (all_isBlank_of_insertionPoint? hp) new
    rcases exists_cut_of_insertionPoint? hleaves hp with
      ⟨a, b, rfl, hbefore, hafter⟩ | ⟨a, b, d, indent, hindent, rfl, hget, hbefore⟩
    · rw [hbefore, hafter]
      exact exists_drawings_between hR hleaves hgood hdraws hrun
    · have hafter : p.after = [indent ++ "UiPop()".toList] ++ b.flatMap Segment.lines := by
        have hcut := append_of_insertionPoint? hp
        rw [hbefore, List.flatMap_append, List.flatMap_cons, d.lines_segment] at hcut
        conv_rhs at hcut => rw [d.lines_eq_concat]
        simp only [List.append_assoc, List.append_cancel_left_eq] at hcut
        exact hcut
      have hall := exists_drawings_into hR hindent hleaves hget hgood hdraws hrun
      simpa only [hbefore, hafter, List.append_assoc] using hall

/-- What a patch draws anew is put together with a drawing for every element of the scene. -/
theorem Readable.exists_assembled (h : s.Readable) {parts : List Segment} {ls : List Line}
    (hls : s.redrawn parts = .ok ls) (hgood : ∀ l ∈ linesOutside parts, Good l) :
    ∃ ds, s.Draws ds s.order ∧ R ds ls := by
  obtain ⟨chunks, placed, hrewrites, hreplace, hmissing⟩ := h.exists_replaced parts
  obtain ⟨left, rfl, hleaves, houtside, hnodup, hmem⟩ := h.exists_leaves hrewrites
  have hreadable : ∀ e ∈ s.orderedElements.filter fun e => e.id ∉ ownersOf parts, e.Readable :=
    fun e he => h.readable_of_mem (List.mem_of_mem_filter he)
  obtain ⟨new, hnew⟩ := Drawing.exists_of_forall hreadable
  have hget : ∀ d ∈ new, s.elements.get? d.element.id = some d.element := fun d hd =>
    h.get?_of_mem (List.mem_of_mem_filter (hnew ▸ List.mem_map_of_mem hd))
  have hadd : addBlocks (left.flatten.flatMap Segment.lines) (new.map Drawing.element) =
      .ok ls := by
    rw [← flatten_map_flatMap, hnew, ← hmissing, ← hls, redrawn, hreplace]
    rfl
  obtain ⟨ds, hds, hlines⟩ :=
    exists_drawings_of_addBlocks hR hleaves (houtside ▸ hgood) hget hadd
  refine ⟨ds, hds.trans ?_, hlines⟩
  rw [h.map_id_of_missing hnew]
  exact h.perm_order hnodup fun id => (hmem id).trans (by simp [ownersOf])

/-- A patched script is put together with a drawing for every element of the scene, if the lines
outside the blocks are of that kind, or there are no blocks. -/
theorem Readable.exists_assembled_patch (h : s.Readable) {text code : List Char}
    {parts : List Segment} (hparts : segments ((LineBreak.ofText text).lines text) = .ok parts)
    (hgood : parts.any Segment.isBlock = true → ∀ l ∈ linesOutside parts, Good l)
    (hframe : ∀ l ∈ headerLines ++ footerLines, Good l)
    (hstub : ∀ {name : List Char}, isCallee name = true → Good (handlerStub name))
    (hcode : s.patch text = .ok code) :
    ∃ (b : LineBreak) (ls : List Line) (ds : List Drawing), code = join b.text ls ∧
      (∀ l ∈ ls, '\n' ∉ l) ∧ s.Draws ds s.order ∧ R ds ls := by
  have hstubs : ∀ names : List (List Char), (∀ name ∈ names, isCallee name = true) →
      ∀ l ∈ names.map handlerStub, '\n' ∉ l ∧ Good l := by
    intro names hnames l hl
    obtain ⟨name, hname, rfl⟩ := List.mem_map.1 hl
    exact ⟨(isStatement_handlerStub (hnames name hname)).flat.lineFeed, hstub (hnames name hname)⟩
  rcases h.drawable.patch_cases text with ⟨-, err, herr⟩ |
    ⟨parts', ls, hparts', hblock, hredrawn, hfeed, hpatch⟩ |
    ⟨parts', blocks, hparts', hblock, hdrawn, hfeed, hpatch⟩
  · cases herr.symm.trans hcode
  · obtain rfl := Except.ok.inj (hparts.symm.trans hparts')
    have hnew := hstubs _ (h.isCallee_of_mem_undeclared ls)
    obtain ⟨ds, hds, hlines⟩ := h.exists_assembled hR hredrawn (hgood hblock)
    have hall := hR.appendLines hlines (hR.of_forall fun l hl => (hnew l hl).2)
    rw [List.append_nil] at hall
    refine ⟨_, _, ds, Except.ok.inj (hcode.symm.trans hpatch), fun l hl => ?_, hds, hall⟩
    exact (mem_appendLines.1 hl).elim (hfeed l) fun hl => (hnew l hl).1
  · have hnew := hstubs _ h.isCallee_of_mem_handlers
    obtain ⟨ds, hds⟩ := h.exists_drawings
    rw [← hds, Drawing.blocksOf_eq] at hdrawn
    obtain rfl := Except.ok.inj hdrawn
    have hids : (ds.map fun d => d.element.id) = s.order := by
      rw [← h.map_id_orderedElements, ← hds, List.map_map]
      rfl
    have hget : ∀ d ∈ ds, s.elements.get? d.element.id = some d.element := fun d hd =>
      h.get?_of_mem (hds ▸ List.mem_map_of_mem hd)
    have hblank : (indentStep ++ indentStep).all isBlank = true := by decide
    have hall := hR.script (hR.flatMap hblank ds) hframe fun l hl => (hnew l hl).2
    refine ⟨_, _, ds, Except.ok.inj (hcode.symm.trans hpatch), fun l hl => ?_,
      ⟨hget, hids ▸ .refl _⟩, hall⟩
    rcases List.mem_append.1 hl with hl | hl
    · exact (List.mem_append.1 hl).elim (hfeed l) fun hl => (hnew l hl).1
    · simp [List.mem_singleton.1 hl]

end Assembled

end Scene

end SceneScript
