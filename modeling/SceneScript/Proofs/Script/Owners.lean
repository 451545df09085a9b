import Mathlib.Data.Set.List
import SceneScript.Proofs.Script.Layout

/-!
# Owners of the blocks of a patched script

A patched script is put together of pieces: lines that were there before, blocks that were written
for elements, and stubs. When no such line names an owner, the segments of the script are its
pieces, so the blocks that are found in it are those that were written.

Main statement: after a patch every element of the scene owns exactly one block and nothing else
does (`Scene.Readable.exists_owners_patch`), if the lines outside the blocks name no owner and new
blocks do not go into a block (`Scene.Separates`).
-/

namespace SceneScript

open Lua Text

/-! ## Pieces -/

theorem flatten_map_flatMap {α β : Type} (f : α → List β) (ll : List (List α)) :
    (ll.map (List.flatMap f)).flatten = ll.flatten.flatMap f := by
  induction ll with
  | nil => rfl
  | cons l ll ih =>
    rw [List.map_cons, List.flatten_cons, List.flatten_cons, List.flatMap_append, ih]

/-- That a line names no owner. -/
def NamesNoOwner (l : Line) : Prop :=
  ∃ marker?, Marker.read l = .ok marker? ∧ Marker.owner? marker? = none

theorem namesNoOwner_of_read {l : Line} (h : Marker.read l = .ok none) : NamesNoOwner l :=
  ⟨none, h, rfl⟩

/-- A piece of a patched script. -/
inductive Piece where
  /-- A line outside the blocks. -/
  | line (l : Line) (plain : NamesNoOwner l) (lineFeed : '\n' ∉ l)
  /-- The block of an element, at an indent. -/
  | block (d : Drawing) (indent : List Char) (blank : indent.all isBlank = true)
    (lineFeed : '\n' ∉ indent)

namespace Piece

/-- The lines of a piece. -/
def lines : Piece → List Line
  | .line l _ _ => [l]
  | .block d indent _ _ => d.lines indent

/-- The segment that a piece is. -/
def segment : Piece → Segment
  | .line l _ _ => .line l
  | .block d indent _ _ => d.segment indent

theorem lines_segment (p : Piece) : p.segment.lines = p.lines := by
  cases p <;> rfl

/-- The owners of the blocks among some pieces. -/
def owners (ps : List Piece) : List String := ownersOf (ps.map segment)

theorem owners_append (ps qs : List Piece) : owners (ps ++ qs) = owners ps ++ owners qs := by
  rw [owners, List.map_append, ownersOf_append]
  rfl

theorem owners_line {l : Line} (plain : NamesNoOwner l) (lineFeed : '\n' ∉ l) :
    owners [.line l plain lineFeed] = [] := rfl

theorem lineFeed_notMem_of_mem_lines (ps : List Piece) : ∀ l ∈ ps.flatMap lines, '\n' ∉ l := by
  intro l hl
  obtain ⟨p, -, hl⟩ := List.mem_flatMap.1 hl
  cases p with
  | line k plain lineFeed =>
    obtain rfl := List.mem_singleton.1 hl
    exact lineFeed
  | block d indent blank lineFeed => exact d.lineFeed_notMem_of_mem_lines lineFeed l hl

/-- The segments of pieces are the pieces. -/
theorem segments_lines (ps : List Piece) :
    segments (ps.flatMap lines) = .ok (ps.map segment) := by
  induction ps with
  | nil => rw [List.flatMap_nil, segments, List.map_nil]
  | cons p ps ih =>
    rw [List.flatMap_cons, List.map_cons]
    cases p with
    | line l plain lineFeed =>
      have hline : segments (l :: ps.flatMap lines) =
          (segments (ps.flatMap lines)).map (.line l :: ·) := by
        obtain ⟨marker?, hread, howner⟩ := plain
        exact segments_line hread (ownedBlock?_of_owner? howner _)
      rw [ih] at hline
      exact hline
    | block d indent blank lineFeed =>
      have hblock := d.segments_lines blank (ps.flatMap lines)
      rw [ih] at hblock
      exact hblock

/-- The blocks of some drawings, at an indent. -/
def blocks (ds : List Drawing) (indent : List Char) (blank : indent.all isBlank = true)
    (lineFeed : '\n' ∉ indent) : List Piece :=
  ds.map fun d => .block d indent blank lineFeed

section Blocks

variable (ds : List Drawing) {indent : List Char} (blank : indent.all isBlank = true)
  (lineFeed : '\n' ∉ indent)

theorem flatMap_lines_blocks :
    (blocks ds indent blank lineFeed).flatMap lines = ds.flatMap fun d => d.lines indent :=
  List.flatMap_map ..

theorem owners_blocks :
    owners (blocks ds indent blank lineFeed) = ds.map fun d => d.element.id := by
  rw [owners, blocks, List.map_map]
  exact ownersOf_segments ds indent

end Blocks

/-- Pieces are put in behind others, but before an empty last line. -/
theorem exists_appendLines (ps qs : List Piece) :
    ∃ rs : List Piece, appendLines (ps.flatMap lines) (qs.flatMap lines) = rs.flatMap lines ∧
      (owners rs).Perm (owners ps ++ owners qs) := by
  by_cases hlast : (ps.flatMap lines).getLast? = some []
  · rcases List.eq_nil_or_concat ps with rfl | ⟨init, p, rfl⟩
    · simp at hlast
    · rw [List.concat_eq_append, List.flatMap_append, List.flatMap_singleton] at hlast ⊢
      cases p with
      | line l plain lineFeed =>
        obtain rfl : l = [] := by simpa [lines] using hlast
        refine ⟨init ++ qs ++ [.line [] plain lineFeed], ?_, ?_⟩
        · rw [appendLines, if_pos hlast]
          simp [lines]
        · simp [owners_append, owners_line]
      | block d indent blank lineFeed =>
        -- a block does not end with an empty line
        have hclosing : (d.lines indent).getLast? = some (indent ++ "UiPop()".toList) := by
          rw [d.lines_eq, ← List.cons_append, ← List.cons_append, List.getLast?_concat]
        rw [lines, List.getLast?_append, hclosing] at hlast
        simp at hlast
  · refine ⟨ps ++ qs, ?_, (owners_append ps qs).symm ▸ .refl _⟩
    rw [appendLines, if_neg hlast, List.flatMap_append]

end Piece

/-! ## The pieces of a rewritten script -/

namespace Scene

/-- That a segment is one that a patch leaves: a line, or the block of an element of the scene. -/
inductive Leaves (s : Scene) : Segment → Prop
  | line (l : Line) : Leaves s (.line l)
  | block (d : Drawing) {indent : List Char} (blank : indent.all isBlank = true)
      (hget : s.elements.get? d.element.id = some d.element) : Leaves s (d.segment indent)

variable {s : Scene} (h : s.Readable)

include h

/-- The segments of a script become such segments, with the same lines outside the blocks. Their
owners are those of the script, each once, that are in the scene. -/
theorem Readable.exists_leaves {before parts : List Segment} {chunks : List (List Line)}
    (hrewrites : s.Rewrites before parts chunks) :
    ∃ left : List (List Segment), left.map (List.flatMap Segment.lines) = chunks ∧
      (∀ part ∈ left.flatten, s.Leaves part) ∧ linesOutside left.flatten = linesOutside parts ∧
      (ownersOf left.flatten).Nodup ∧ ∀ id, id ∈ ownersOf left.flatten ↔
        id ∈ ownersOf parts ∧ id ∉ ownersOf before ∧ id ∈ s.elements.keys := by
  induction hrewrites with
  | nil => exact ⟨[], rfl, by simp, rfl, List.nodup_nil, by simp [ownersOf]⟩
  | @cons before parts part chunk chunks head _ ih =>
    obtain ⟨left, hleft, hleaves, hlines, hnodup, hmem⟩ := ih
    rcases h.rewritten_cases head with ⟨l, rfl, rfl⟩ | ⟨id, marker, region, rfl, rfl, hid⟩ |
      ⟨d, marker, region, rfl, rfl, hget, hid⟩
    · refine ⟨[.line l] :: left, by rw [List.map_cons, hleft]; rfl,
        List.forall_mem_cons.2 ⟨.line l, hleaves⟩, congrArg (l :: ·) hlines, hnodup,
        fun key => (hmem key).trans ?_⟩
      simp [mem_ownersOf_concat, mem_ownersOf_cons, Segment.owner?]
    · refine ⟨[] :: left, by rw [List.map_cons, hleft]; rfl, hleaves, hlines, hnodup,
        fun key => ?_⟩
      rw [List.flatten_cons, List.nil_append, hmem, mem_ownersOf_concat, mem_ownersOf_cons]
      simp only [Segment.owner?, Option.some.injEq]
      grind
    · have hkey : d.element.id ∈ s.elements.keys := Table.mem_keys_of_get? hget
      have howners : ownersOf ([d.segment (indentOf marker)] :: left).flatten =
          d.element.id :: ownersOf left.flatten := rfl
      have hchunk : [d.segment (indentOf marker)].flatMap Segment.lines =
          d.lines (indentOf marker) := List.flatMap_singleton ..
      refine ⟨[d.segment (indentOf marker)] :: left, by rw [List.map_cons, hleft, hchunk],
        List.forall_mem_cons.2 ⟨.block d (by simp [indentOf]) hget, hleaves⟩, hlines, ?_,
        fun key => ?_⟩
      · rw [howners, List.nodup_cons, hmem, mem_ownersOf_concat]
        exact ⟨fun hid => hid.2.1 (.inr rfl), hnodup⟩
      · rw [howners, List.mem_cons, hmem, mem_ownersOf_concat, mem_ownersOf_cons]
        simp only [Segment.owner?, Option.some.injEq]
        grind

/-- They are pieces when the lines outside the blocks name no owner. -/
theorem Readable.exists_pieces {before parts : List Segment} {chunks : List (List Line)}
    (hrewrites : s.Rewrites before parts chunks)
    (houtside : ∀ l, .line l ∈ parts → NamesNoOwner l)
    (hfeed : ∀ l ∈ parts.flatMap Segment.lines, '\n' ∉ l) :
    ∃ pss : List (List Piece), pss.map (List.flatMap Piece.lines) = chunks ∧
      (Piece.owners pss.flatten).Nodup ∧ ∀ id, id ∈ Piece.owners pss.flatten ↔
        id ∈ ownersOf parts ∧ id ∉ ownersOf before ∧ id ∈ s.elements.keys := by
  have hchunks := h.lineFeed_notMem_of_rewrites hrewrites hfeed
  obtain ⟨left, rfl, hleaves, hlines, hnodup, hmem⟩ := h.exists_leaves hrewrites
  have hfeed : ∀ part ∈ left.flatten, ∀ l ∈ part.lines, '\n' ∉ l := by
    intro part hpart l hl
    refine hchunks l ?_
    rw [flatten_map_flatMap]
    exact List.mem_flatMap.2 ⟨part, hpart, hl⟩
  have hpiece : ∀ part ∈ left.flatten, part ∈ Set.range Piece.segment := by
    intro part hpart
    cases hleaves part hpart with
    | line l =>
      have hl : .line l ∈ parts := mem_linesOutside.1 (hlines ▸ mem_linesOutside.2 hpart)
      exact ⟨.line l (houtside l hl) (hfeed _ hpart l List.mem_cons_self), rfl⟩
    | @block d indent blank hget =>
      have hmarker := hfeed _ hpart _ List.mem_cons_self
      exact ⟨.block d indent blank fun hindent => hmarker (List.mem_append_left _ hindent), rfl⟩
  obtain ⟨pss, rfl⟩ : left ∈ Set.range (List.map (List.map Piece.segment)) := by
    rw [Set.range_list_map, Set.range_list_map]
    exact fun parts hparts part hpart => hpiece part (List.mem_flatten_of_mem hparts hpart)
  have howners : Piece.owners pss.flatten =
      ownersOf (pss.map (List.map Piece.segment)).flatten := by
    rw [Piece.owners, List.map_flatten]
  refine ⟨pss, ?_, howners ▸ hnodup, howners ▸ hmem⟩
  rw [List.map_map]
  refine List.map_congr_left fun ps _ => ?_
  exact (List.flatMap_congr fun p _ => p.lines_segment.symm).trans (List.flatMap_map ..).symm

end Scene

/-! ## New blocks and stubs -/

/-- Blocks for some drawings are put in between pieces. -/
theorem Piece.exists_addBlocks (ds : List Drawing) (pss : List (List Piece))
    (hplace : ds ≠ [] → ∀ place, insertionPoint? (pss.flatten.flatMap lines) = some place →
      ∃ n, place.before = (pss.take n).flatten.flatMap lines) :
    ∃ ps : List Piece, addBlocks (pss.flatten.flatMap lines) (ds.map Drawing.element) =
        .ok (ps.flatMap lines) ∧
      (owners ps).Perm (owners pss.flatten ++ ds.map fun d => d.element.id) := by
  by_cases hne : ds = []
  · subst hne
    exact ⟨pss.flatten, rfl, by simp⟩
  · rw [addBlocks, if_neg (by simpa using hne)]
    cases hp : insertionPoint? (pss.flatten.flatMap lines) with
    | none =>
      obtain ⟨ps, hps, hperm⟩ :=
        exists_appendLines pss.flatten (blocks ds [] all_isBlank_nil (by simp))
      rw [flatMap_lines_blocks] at hps
      rw [owners_blocks] at hperm
      refine ⟨ps, ?_, hperm⟩
      dsimp only
      rw [Drawing.blocksOf_eq]
      exact congrArg Except.ok hps
    | some place =>
      obtain ⟨n, hbefore⟩ := hplace hne place hp
      have hcut := append_of_insertionPoint? hp
      have hafter : place.after = (pss.drop n).flatten.flatMap lines := by
        rw [← List.take_append_drop n pss, List.flatten_append, List.flatMap_append,
          hbefore] at hcut
        exact List.append_cancel_left hcut
      have hblank := all_isBlank_of_insertionPoint? hp
      have hfeed := lineFeed_notMem_of_insertionPoint? hp (lineFeed_notMem_of_mem_lines pss.flatten)
      refine ⟨(pss.take n).flatten ++ blocks ds place.indent hblank hfeed ++ (pss.drop n).flatten,
        ?_, ?_⟩
      · dsimp only
        rw [Drawing.blocksOf_eq, hbefore, hafter, List.flatMap_append, List.flatMap_append,
          flatMap_lines_blocks]
        rfl
      · have hsplit : owners pss.flatten =
            owners (pss.take n).flatten ++ owners (pss.drop n).flatten := by
          rw [← owners_append, ← List.flatten_append, List.take_append_drop]
        rw [owners_append, owners_append, owners_blocks, hsplit, List.append_assoc,
          List.append_assoc]
        exact List.perm_append_comm.append_left _

/-- The stubs of some handlers. -/
theorem Piece.exists_stubs {names : List (List Char)} (h : ∀ name ∈ names, isCallee name = true) :
    ∃ qs : List Piece, qs.flatMap lines = names.map handlerStub ∧ owners qs = [] := by
  induction names with
  | nil => exact ⟨[], rfl, rfl⟩
  | cons name names ih =>
    obtain ⟨qs, hqs, howners⟩ := ih fun name' hname' => h name' (List.mem_cons_of_mem _ hname')
    have hname := h name List.mem_cons_self
    refine ⟨.line (handlerStub name) (namesNoOwner_of_read (read_handlerStub hname))
      (isStatement_handlerStub hname).flat.lineFeed :: qs, ?_, howners⟩
    rw [List.flatMap_cons, hqs]
    rfl

/-! ## Patched scripts -/

namespace Scene

/-- That the blocks of a script can be told from the rest of it: the lines outside name no owner,
and if an element has no block yet, the place for it in the lines that the script becomes is not in
a block. -/
structure Separates (s : Scene) (parts : List Segment) : Prop where
  outside : ∀ l, .line l ∈ parts → NamesNoOwner l
  place : (∃ e ∈ s.orderedElements, e.id ∉ ownersOf parts) →
    ∀ chunks, s.Rewrites [] parts chunks → ∀ place,
      insertionPoint? chunks.flatten = some place → ∃ n, place.before = (chunks.take n).flatten

/-- The ids of the scene among some, each once, and the other ids of the scene are its order. -/
theorem Readable.perm_order {s : Scene} (h : s.Readable) {kept present : List String}
    (hnodup : kept.Nodup) (hmem : ∀ id, id ∈ kept ↔ id ∈ present ∧ id ∈ s.elements.keys) :
    (kept ++ s.order.filter fun id => id ∉ present).Perm s.order := by
  have hdisjoint : ∀ id ∈ kept, ∀ other ∈ s.order.filter fun id => id ∉ present, id ≠ other := by
    rintro id hid other hother rfl
    simp [((hmem id).1 hid).1] at hother
  have hboth := List.nodup_append.2 ⟨hnodup, h.nodup_order.filter _, hdisjoint⟩
  refine (List.perm_ext_iff_of_nodup hboth h.nodup_order).2 fun id => ?_
  rw [List.mem_append, hmem, List.mem_filter, h.order.mem_iff, decide_eq_true_iff]
  tauto

/-- The drawings of the elements that are missing among some ids have the other ids of the order. -/
theorem Readable.map_id_of_missing {s : Scene} (h : s.Readable) {present : List String}
    {ds : List Drawing}
    (hds : ds.map Drawing.element = s.orderedElements.filter fun e => e.id ∉ present) :
    (ds.map fun d => d.element.id) = s.order.filter fun id => id ∉ present := by
  rw [← h.map_id_orderedElements, List.filter_map]
  exact (List.map_map ..).symm.trans (congrArg (List.map Element.id) hds)

/-- A script without blocks is replaced by one that has a block for every element. -/
theorem Readable.exists_owners_script {s : Scene} (h : s.Readable) {text : List Char}
    {parts : List Segment}
    (hparts : segments ((LineBreak.ofText text).lines text) = .ok parts)
    (hblock : parts.any Segment.isBlock = false) :
    ∃ ls parts', s.patch text = .ok (join (LineBreak.ofText text).text ls) ∧
      (∀ l ∈ ls, '\n' ∉ l) ∧ segments ls = .ok parts' ∧ (ownersOf parts').Perm s.order := by
  obtain ⟨ds, hds⟩ := h.exists_drawings
  have hcallee := h.isCallee_of_mem_handlers
  have hfeed : ∀ l ∈ Drawing.scriptLines ds s.handlers ++ [[]], '\n' ∉ l := by
    rw [← Drawing.lines_code ds hcallee]
    exact LineBreak.lineFeed_notMem_of_mem_lines (b := .lf)
  refine ⟨_, _, ?_, hfeed, Drawing.segments_scriptLines ds hcallee, ?_⟩
  · rw [patch_of_not_block hparts hblock, s.script_eq hds]
    exact congrArg Except.ok (replaceChar_join hfeed)
  · have hdrawn : ownersOf (ds.map fun d => d.segment (indentStep ++ indentStep)) = s.order := by
      rw [ownersOf_segments, ← h.map_id_orderedElements, ← hds, List.map_map]
      rfl
    rw [ownersOf_append, ownersOf_append, ownersOf_lines, ownersOf_lines, hdrawn, List.nil_append,
      List.append_nil]

/-- After a patch the owners of the blocks are the ids of the scene, each once: a script without
blocks is replaced by one that has them, and in a script whose blocks can be told from the rest of
it, blocks are rewritten, dropped and put in. -/
theorem Readable.exists_owners_patch {s : Scene} (h : s.Readable) {text : List Char}
    {parts : List Segment}
    (hparts : segments ((LineBreak.ofText text).lines text) = .ok parts)
    (hseparates : parts.any Segment.isBlock = true → s.Separates parts) :
    ∃ ls parts', s.patch text = .ok (join (LineBreak.ofText text).text ls) ∧
      (∀ l ∈ ls, '\n' ∉ l) ∧ segments ls = .ok parts' ∧ (ownersOf parts').Perm s.order := by
  cases hblock : parts.any Segment.isBlock with
  | false => exact h.exists_owners_script hparts hblock
  | true =>
    have hsep := hseparates hblock
    have hfeed : ∀ l ∈ parts.flatMap Segment.lines, '\n' ∉ l :=
      lines_segments hparts ▸ LineBreak.lineFeed_notMem_of_mem_lines
    obtain ⟨chunks, hrewrites, hsegments⟩ := h.exists_patchSegments parts
    obtain ⟨pss, rfl, hnodup, hmem⟩ := h.exists_pieces hrewrites hsep.outside hfeed
    rw [flatten_map_flatMap] at hsegments
    have hreadable : ∀ e ∈ s.orderedElements.filter fun e => e.id ∉ ownersOf parts, e.Readable :=
      fun e he => h.readable_of_mem (List.mem_of_mem_filter he)
    obtain ⟨ds, hds⟩ := Drawing.exists_of_forall hreadable
    have hplace : ds ≠ [] → ∀ place,
        insertionPoint? (pss.flatten.flatMap Piece.lines) = some place →
          ∃ n, place.before = (pss.take n).flatten.flatMap Piece.lines := by
      intro hne place hplace
      obtain ⟨d, hd⟩ := List.exists_mem_of_ne_nil ds hne
      obtain ⟨he, hid⟩ := List.mem_filter.1 (hds ▸ List.mem_map_of_mem hd)
      obtain ⟨n, hn⟩ := hsep.place ⟨d.element, he, of_decide_eq_true hid⟩ _ hrewrites place
        (flatten_map_flatMap Piece.lines pss ▸ hplace)
      exact ⟨n, by rw [hn, ← List.map_take, flatten_map_flatMap]⟩
    obtain ⟨ps, hadd, hperm⟩ := Piece.exists_addBlocks ds pss hplace
    obtain ⟨qs, hqs, hstubs⟩ := Piece.exists_stubs fun name hname =>
      h.isCallee_of_mem_handlers name (List.mem_of_mem_filter hname)
    obtain ⟨rs, hrs, hperm'⟩ := Piece.exists_appendLines ps qs
    rw [hstubs, List.append_nil] at hperm'
    refine ⟨rs.flatMap Piece.lines, rs.map Piece.segment, ?_, Piece.lineFeed_notMem_of_mem_lines rs,
      Piece.segments_lines rs, (hperm'.trans hperm).trans ?_⟩
    · rw [← hrs, hqs]
      exact patch_of_block hparts hblock (hsegments _ (hds ▸ hadd))
    · rw [h.map_id_of_missing hds]
      exact h.perm_order hnodup fun id => (hmem id).trans (by simp [ownersOf])

/-- In the script of one block, a label takes the place of the block that goes. -/
theorem exists_owners_loneBlock :
    ∃ ls parts', (empty.add (Element.ofType .text "t" 0 0)).patch loneBlock =
        .ok (join (LineBreak.ofText loneBlock).text ls) ∧
      (∀ l ∈ ls, '\n' ∉ l) ∧ segments ls = .ok parts' ∧ (ownersOf parts').Perm ["t"] := by
  refine Readable.exists_owners_patch (s := empty.add (Element.ofType .text "t" 0 0))
    (readable_empty.add (Element.readable_ofType rfl (by decide) (by decide) (by decide +kernel)
      (by decide +kernel)) (by decide)) segments_loneBlock fun _ => ⟨fun l hl => ?_, ?_⟩
  · obtain rfl : l = [] := by simpa [loneBlockParts] using hl
    exact namesNoOwner_of_read (read_of_afterWord? (by decide))
  · rintro - chunks (_ | ⟨head, _ | ⟨head', tail⟩⟩) place hplace
    cases tail
    obtain rfl := Except.ok.inj head
    obtain rfl := Except.ok.inj head'
    have hnone : insertionPoint? [[]] = none := rfl
    exact absurd (hnone.symm.trans hplace) (by simp)

/-- A drawing function that opens no block of its own. -/
def unwrappedScript : List Char :=
  "function draw()\n--TDGUI id=a type=rect\nUiPush()\nUiRect(1, 1)\nUiPop()\nend\n".toList

/-- Two boxes. -/
def twoBoxes : Scene :=
  (empty.add (Element.ofType .rect "a" 0 0)).add (Element.ofType .rect "b" 0 0)

theorem readable_twoBoxes : twoBoxes.Readable :=
  (readable_empty.add (Element.readable_ofType rfl (by decide) (by decide) (by decide +kernel)
    (by decide +kernel)) (by decide)).add (Element.readable_ofType rfl (by decide) (by decide)
      (by decide +kernel) (by decide +kernel)) (by decide)

/-- When the last block is the one that closes the drawing function, new blocks go into it, and are
not found. -/
theorem owners_patch_twoBoxes : twoBoxes.Readable ∧ twoBoxes.order = ["a", "b"] ∧
    (twoBoxes.patch unwrappedScript).map (fun code =>
      (segments (Text.lines code)).map ownersOf) = .ok (.ok ["a"]) :=
  ⟨readable_twoBoxes, by decide +kernel, by decide +kernel⟩

end Scene

end SceneScript
