import SceneScript.Proofs.Script.Insertion
import SceneScript.Proofs.Script.LineBreak
import SceneScript.Proofs.Script.Owners

/-!
# Patching a script twice

A patch leaves written segments: lines outside the blocks, and blocks of elements of the scene
(`Scene.Leaves`). Patched again, they become what they are (`Scene.KeptAs`), and no block is missing
any more. The missing blocks may also have gone into a written block; then that block is written
anew without them, and they go to the same place once more.

A script is read back with the line break that it was joined with, and its segments are found again,
if the patch leaves it steady (`Scene.Steady`): no line outside the blocks comes to own what is
moved up to it, and no carriage return at the end of the script becomes a part of a line break.

Main statement: the second patch of a steady script changes nothing, but where the first has left no
block at all, since the scene is empty, it writes the whole script (`Scene.Readable.patch_patch`).
-/

namespace SceneScript

open Lua Text

/-! ## Scripts with blocks -/

/-- A script has a block exactly when some block has an owner. -/
theorem any_isBlock_iff {parts : List Segment} :
    parts.any Segment.isBlock = true ↔ ownersOf parts ≠ [] := by
  induction parts with
  | nil => simp [ownersOf]
  | cons part parts ih =>
    cases part with
    | line l => simpa [Segment.isBlock, ownersOf, Segment.owner?] using ih
    | block id marker region => simp [Segment.isBlock, ownersOf, Segment.owner?]

/-- A script with a block has several lines. -/
theorem two_le_length_of_isBlock {ls : List Line} {parts : List Segment}
    (h : segments ls = .ok parts) (hblock : parts.any Segment.isBlock = true) : 2 ≤ ls.length := by
  match ls with
  | [] =>
    rw [segments] at h
    obtain rfl := Except.ok.inj h
    cases hblock
  | [l] =>
    rw [segments] at h
    obtain rfl := Except.ok.inj h
    cases hblock
  | _ :: _ :: _ => simp

namespace Scene

variable (s : Scene)

/-! ## What a patch leaves -/

/-- What a patch makes of the first segment of an owner: a line stays, and the block of an element
of the scene becomes what is written for it, whatever its region is. -/
inductive KeptAs : Segment → List Line → Prop
  | line (l : Line) : KeptAs (.line l) [l]
  | block (d : Drawing) {indent : List Char} (blank : indent.all isBlank = true)
      (hget : s.elements.get? d.element.id = some d.element) (region : List Line) :
      KeptAs (.block d.element.id (indent ++ Marker.text d.element d.frame.w d.frame.h) region)
        (d.lines indent)

variable {s}

theorem Leaves.keptAs {part : Segment} (h : s.Leaves part) : s.KeptAs part part.lines := by
  cases h with
  | line l => exact .line l
  | block d blank hget => exact .block d blank hget _

/-- What a patch leaves becomes what it is. -/
theorem forall₂_keptAs {parts : List Segment} (h : ∀ part ∈ parts, s.Leaves part) :
    List.Forall₂ s.KeptAs parts (parts.map Segment.lines) := by
  rw [List.forall₂_map_right_iff, List.forall₂_same]
  exact fun part hpart => (h part hpart).keptAs

theorem rewritten_of_keptAs {part : Segment} {chunk : List Line} (h : s.KeptAs part chunk)
    {before : List Segment} (hfresh : ∀ id, part.owner? = some id → id ∉ ownersOf before) :
    s.rewritten before part = .ok chunk := by
  cases h with
  | line l => rfl
  | block d blank hget region =>
    rw [rewritten, hget, indentOf_append blank (Marker.tight_text _ _ _)]
    exact (if_neg (hfresh _ rfl)).trans (d.block_eq _)

theorem Rewrites.of_keptAs {before parts : List Segment} {chunks : List (List Line)}
    (h : List.Forall₂ s.KeptAs parts chunks) (hnodup : (ownersOf (before ++ parts)).Nodup) :
    s.Rewrites before parts chunks := by
  induction h generalizing before with
  | nil => exact .nil before
  | @cons part chunk parts chunks hpart _ ih =>
    refine .cons (rewritten_of_keptAs hpart fun id hid hmem => ?_) (ih (by simpa using hnodup))
    rw [ownersOf_append, List.nodup_append] at hnodup
    exact hnodup.2.2 id hmem id (mem_ownersOf_cons.2 (.inl hid)) rfl

/-- Segments become one thing only. -/
theorem Rewrites.unique {before parts : List Segment} {chunks chunks' : List (List Line)}
    (h : s.Rewrites before parts chunks) (h' : s.Rewrites before parts chunks') :
    chunks = chunks' := by
  induction h generalizing chunks' with
  | nil => cases h'; rfl
  | cons head _ ih =>
    cases h' with
    | cons head' tail' => rw [Except.ok.inj (head.symm.trans head'), ih tail']

/-- A script of kept segments to which nothing is added. -/
theorem Readable.patchSegments_of_keptAs (h : s.Readable) {parts : List Segment}
    {chunks : List (List Line)} {ls : List Line} (hkept : List.Forall₂ s.KeptAs parts chunks)
    (hnodup : (ownersOf parts).Nodup)
    (hadd : addBlocks chunks.flatten (s.orderedElements.filter fun e => e.id ∉ ownersOf parts) =
      .ok ls)
    (hdeclared : undeclared ls s.handlers = []) : s.patchSegments parts = .ok ls := by
  obtain ⟨chunks', hrewrites, hpatch⟩ := h.exists_patchSegments parts
  obtain rfl := hrewrites.unique (.of_keptAs hkept hnodup)
  rw [hpatch ls hadd, hdeclared]
  exact congrArg Except.ok (appendLines_of_isEmpty ls []).symm

/-! ## What a patch writes -/

/-- The segments that a script becomes are written ones, each owner of the scene once, if the lines
outside its blocks own nothing then either. -/
theorem Readable.exists_written (h : s.Readable) {before parts : List Segment}
    {chunks : List (List Line)} (hrewrites : s.Rewrites before parts chunks)
    (houtside : ∀ front l back, parts = front ++ .line l :: back → ∀ chunks,
      s.Rewrites (before ++ front ++ [.line l]) back chunks → OwnsNothing l chunks.flatten) :
    ∃ written : List Segment, written.flatMap Segment.lines = chunks.flatten ∧
      Segmented written ∧ (∀ part ∈ written, s.Leaves part) ∧ (ownersOf written).Nodup ∧
      ∀ id, id ∈ ownersOf written ↔
        id ∈ ownersOf parts ∧ id ∉ ownersOf before ∧ id ∈ s.elements.keys := by
  induction hrewrites with
  | nil => exact ⟨[], rfl, .nil, by simp, List.nodup_nil, by simp [ownersOf]⟩
  | @cons before parts part chunk chunks head tail ih =>
    obtain ⟨written, hlines, hsegmented, hwritten, hnodup, hmem⟩ :=
      ih fun front l back heq chunks => by
        simpa using houtside (part :: front) l back (by rw [heq]; rfl) chunks
    rcases h.rewritten_cases head with ⟨l, rfl, rfl⟩ | ⟨id, marker, region, rfl, rfl, hid⟩ |
      ⟨d, marker, region, rfl, rfl, hget, hid⟩
    · have hl := houtside [] l parts rfl chunks (by rwa [List.append_nil])
      refine ⟨.line l :: written, by rw [List.flatMap_cons, hlines]; rfl,
        .line (by rwa [hlines]) hsegmented, List.forall_mem_cons.2 ⟨.line l, hwritten⟩, hnodup,
        fun key => (hmem key).trans ?_⟩
      simp [mem_ownersOf_concat, mem_ownersOf_cons, Segment.owner?]
    · refine ⟨written, hlines, hsegmented, hwritten, hnodup, fun key => ?_⟩
      rw [hmem, mem_ownersOf_concat, mem_ownersOf_cons]
      simp only [Segment.owner?, Option.some.injEq]
      grind
    · have hblank : (indentOf marker).all isBlank = true := by simp [indentOf]
      have hkey : d.element.id ∈ s.elements.keys := Table.mem_keys_of_get? hget
      refine ⟨d.segment (indentOf marker) :: written, by rw [List.flatMap_cons, hlines]; rfl,
        .block (d.isOwned_of_isLeading hblank (d.isLeading_tail hblank)) hsegmented,
        List.forall_mem_cons.2 ⟨.block d hblank hget, hwritten⟩, ?_, fun key => ?_⟩
      · have hcons : ownersOf (d.segment (indentOf marker) :: written) =
            d.element.id :: ownersOf written := rfl
        rw [hcons, List.nodup_cons, hmem, mem_ownersOf_concat]
        exact ⟨fun hid => hid.2.1 (.inr rfl), hnodup⟩
      · rw [mem_ownersOf_cons, hmem, mem_ownersOf_concat, mem_ownersOf_cons]
        simp only [Drawing.segment, Segment.owner?, Option.some.injEq]
        grind

/-- That some lines are those of written segments with blocks for some drawings between them. -/
def HoldsBetween (s : Scene) (written : List Segment) (ds : List Drawing) (ls : List Line) : Prop :=
  ∃ all : List Segment, all.flatMap Segment.lines = ls ∧ Segmented all ∧
    (∀ part ∈ all, s.Leaves part) ∧
    (ownersOf all).Perm (ownersOf written ++ ds.map fun d => d.element.id)

theorem holdsBetween_of_append {a b : List Segment} (hsegmented : Segmented (a ++ b))
    (hwritten : ∀ part ∈ a ++ b, s.Leaves part) {ds : List Drawing}
    (hds : ∀ d ∈ ds, s.elements.get? d.element.id = some d.element) {indent : List Char}
    (hindent : indent.all isBlank = true) :
    s.HoldsBetween (a ++ b) ds (a.flatMap Segment.lines ++
      (ds.flatMap fun d => d.lines indent) ++ b.flatMap Segment.lines) := by
  refine ⟨a ++ ((ds.map fun d => d.segment indent) ++ b), ?_,
    Drawing.segmented_insert hindent ds hsegmented, ?_, ?_⟩
  · rw [List.flatMap_append, List.flatMap_append, Drawing.flatMap_lines_segment,
      List.append_assoc]
  · rw [List.forall_mem_append] at hwritten
    refine List.forall_mem_append.2 ⟨hwritten.1, List.forall_mem_append.2 ⟨fun part hpart => ?_,
      hwritten.2⟩⟩
    obtain ⟨d, hd, rfl⟩ := List.mem_map.1 hpart
    exact .block d hindent (hds d hd)
  · rw [ownersOf_append, ownersOf_append, ownersOf_append, ownersOf_segments, List.append_assoc]
    exact List.perm_append_comm.append_left _

/-- The place for new blocks is between written segments, or before the last line of a written
block. -/
theorem exists_cut_of_insertionPoint? {written : List Segment}
    (hwritten : ∀ part ∈ written, s.Leaves part) {p : InsertionPoint}
    (hp : insertionPoint? (written.flatMap Segment.lines) = some p) :
    (∃ a b, written = a ++ b ∧ p.before = a.flatMap Segment.lines ∧
      p.after = b.flatMap Segment.lines) ∨
    ∃ (a b : List Segment) (d : Drawing) (indent : List Char), indent.all isBlank = true ∧
      written = a ++ d.segment indent :: b ∧ s.elements.get? d.element.id = some d.element ∧
      p.before = a.flatMap Segment.lines ++ (d.lines indent).dropLast := by
  have hcut := append_of_insertionPoint? hp
  obtain ⟨front, decl, body, closing, back, behind, hpoint, -, -, -, hclosing, -⟩ :=
    exists_split_of_insertionPoint? hp
  have hafter : p.after = closing :: (back ++ behind) := by rw [hpoint]; rfl
  have hcloses : ∀ part ∈ written, ∀ l ∈ part.lines.dropLast, closesOnLine l = false := by
    intro part hpart
    cases hwritten part hpart with
    | line l => simp [Segment.lines]
    | block d blank hget => exact d.closesOnLine_of_mem_dropLast blank
  have hbetween : ∀ a b, written = a ++ b → p.before = a.flatMap Segment.lines →
      ∃ a b, written = a ++ b ∧ p.before = a.flatMap Segment.lines ∧
        p.after = b.flatMap Segment.lines := by
    rintro a b rfl hbefore
    rw [hbefore, List.flatMap_append] at hcut
    exact ⟨a, b, rfl, hbefore, List.append_cancel_left hcut⟩
  rcases exists_cut_of_closesOnLine (hafter ▸ hcut.symm) hclosing hcloses with
    ⟨a, b, heq, hbefore⟩ | ⟨a, part, b, rfl, hbefore⟩
  · exact .inl (hbetween a b heq hbefore)
  · cases hwritten part (by simp) with
    | line l => exact .inl (hbetween a (.line l :: b) rfl (hbefore.trans (List.append_nil _)))
    | block d blank hget => exact .inr ⟨a, b, d, _, blank, rfl, hget, hbefore⟩

/-- New blocks go between written segments, or before the last line of a written block. -/
theorem exists_place {written : List Segment} (hsegmented : Segmented written)
    (hwritten : ∀ part ∈ written, s.Leaves part) {ds : List Drawing}
    (hds : ∀ d ∈ ds, s.elements.get? d.element.id = some d.element) {ls : List Line}
    (hadd : addBlocks (written.flatMap Segment.lines) (ds.map Drawing.element) = .ok ls) :
    s.HoldsBetween written ds ls ∨
    ds ≠ [] ∧ ∃ (a b : List Segment) (d : Drawing) (indent : List Char) (p : InsertionPoint),
      indent.all isBlank = true ∧ written = a ++ d.segment indent :: b ∧
      s.elements.get? d.element.id = some d.element ∧
      insertionPoint? (written.flatMap Segment.lines) = some p ∧
      p.before = a.flatMap Segment.lines ++ (d.lines indent).dropLast ∧
      ls = p.before ++ (ds.flatMap fun d => d.lines p.indent) ++ p.after := by
  by_cases hne : ds = []
  · subst hne
    exact .inl ⟨written, Except.ok.inj hadd, hsegmented, hwritten, by simp⟩
  rw [addBlocks, if_neg (by simpa using hne)] at hadd
  cases hp : insertionPoint? (written.flatMap Segment.lines) with
  | none =>
    obtain ⟨a, b, rfl, hend⟩ := hsegmented.exists_end
    rw [hp, Drawing.blocksOf_eq] at hadd
    obtain rfl := Except.ok.inj hadd
    have hbetween := holdsBetween_of_append hsegmented hwritten hds all_isBlank_nil
    rw [← List.nil_append (a.flatMap Segment.lines), ← hend [] _ (by simp)] at hbetween
    exact .inl hbetween
  | some p =>
    rw [hp] at hadd
    dsimp only at hadd
    rw [Drawing.blocksOf_eq] at hadd
    obtain rfl : p.before ++ (ds.flatMap fun d => d.lines p.indent) ++ p.after = ls :=
      Except.ok.inj hadd
    rcases exists_cut_of_insertionPoint? hwritten hp with
      ⟨a, b, rfl, hbefore, hafter⟩ | ⟨a, b, d, indent, hindent, rfl, hget, hbefore⟩
    · rw [hbefore, hafter]
      exact .inl (holdsBetween_of_append hsegmented hwritten hds
        (all_isBlank_of_insertionPoint? hp))
    · exact .inr ⟨hne, a, b, d, indent, p, hindent, rfl, hget, rfl, hbefore, rfl⟩

/-! ## Patching what a patch has written -/

/-- Lines with stubs for the handlers that they do not declare. -/
def withStubs (s : Scene) (ls : List Line) : List Line :=
  appendLines ls ((undeclared ls s.handlers).map handlerStub)

theorem Readable.isCallee_of_mem_undeclared (h : s.Readable) (ls : List Line) :
    ∀ name ∈ undeclared ls s.handlers, isCallee name = true :=
  fun name hname => h.isCallee_of_mem_handlers name (List.mem_of_mem_filter hname)

/-- With the stubs every handler is declared. -/
theorem Readable.undeclared_withStubs (h : s.Readable) (ls : List Line) :
    undeclared (s.withStubs ls) s.handlers = [] := by
  refine List.filter_eq_nil_iff.2 fun name hname => ?_
  rw [Bool.not_eq_true, Bool.not_eq_false', List.any_eq_true]
  by_cases hdeclared : ls.any (declaresFunction name) = true
  · obtain ⟨l, hl, hdeclares⟩ := List.any_eq_true.1 hdeclared
    exact ⟨l, mem_appendLines.2 (.inl hl), hdeclares⟩
  · have hmem : name ∈ undeclared ls s.handlers :=
      List.mem_filter.2 ⟨hname, by simpa using hdeclared⟩
    exact ⟨handlerStub name, mem_appendLines.2 (.inr (List.mem_map_of_mem hmem)),
      declaresFunction_handlerStub (h.isCallee_of_mem_handlers name hname)⟩

theorem leaves_of_mem_lines {ls : List Line} : ∀ part ∈ ls.map Segment.line, s.Leaves part := by
  intro part hpart
  obtain ⟨l, -, rfl⟩ := List.mem_map.1 hpart
  exact .line l

/-- When every element of the scene has a block, none is missing. -/
theorem Readable.filter_orderedElements_eq_nil (h : s.Readable) {ids : List String}
    (hall : ∀ id ∈ s.order, id ∈ ids) : (s.orderedElements.filter fun e => e.id ∉ ids) = [] := by
  refine List.filter_eq_nil_iff.2 fun e he => ?_
  have hid : e.id ∈ s.order := h.map_id_orderedElements ▸ List.mem_map_of_mem he
  simpa using hall e.id hid

/-- The stubs at the end go between written segments. -/
theorem exists_stubbed {a b : List Segment} (hsegmented : Segmented (a ++ b))
    (hwritten : ∀ part ∈ b, s.Leaves part) {names : List (List Char)}
    (hnames : ∀ name ∈ names, isCallee name = true) :
    ∃ b' : List Segment, Segmented (a ++ b') ∧ (∀ part ∈ b', s.Leaves part) ∧
      ownersOf b' = ownersOf b ∧ ∀ front : List Line, front.getLast? ≠ some [] →
        appendLines (front ++ b.flatMap Segment.lines) (names.map handlerStub) =
          front ++ b'.flatMap Segment.lines := by
  obtain ⟨c, e, rfl, hend⟩ := hsegmented.of_append.exists_end
  refine ⟨c ++ ((names.map handlerStub).map .line ++ e), ?_, ?_, ?_, fun front hfront => ?_⟩
  · rw [← List.append_assoc] at hsegmented ⊢
    exact segmented_insert_stubs hnames hsegmented
  · rw [List.forall_mem_append] at hwritten
    exact List.forall_mem_append.2 ⟨hwritten.1,
      List.forall_mem_append.2 ⟨leaves_of_mem_lines, hwritten.2⟩⟩
  · rw [ownersOf_append, ownersOf_append, ownersOf_lines, ownersOf_append, List.nil_append]
  · rw [hend front _ hfront, List.flatMap_append, List.flatMap_append, flatMap_lines_line,
      List.append_assoc, List.append_assoc]

section Again

variable (h : s.Readable)

include h

/-- Segments with a block for every element stay as they are, with stubs. -/
theorem Readable.exists_again_of_perm {parts : List Segment} (hsegmented : Segmented parts)
    (hwritten : ∀ part ∈ parts, s.Leaves part) (hperm : (ownersOf parts).Perm s.order) :
    ∃ again, again.flatMap Segment.lines = s.withStubs (parts.flatMap Segment.lines) ∧
      Segmented again ∧ ownersOf again = ownersOf parts ∧
      s.patchSegments again = .ok (s.withStubs (parts.flatMap Segment.lines)) := by
  obtain ⟨again, hagain, hwritten', howners, happend⟩ := exists_stubbed (a := []) hsegmented
    hwritten (h.isCallee_of_mem_undeclared (parts.flatMap Segment.lines))
  have hlines : s.withStubs (parts.flatMap Segment.lines) = again.flatMap Segment.lines :=
    happend [] (by simp)
  refine ⟨again, hlines.symm, hagain, howners, ?_⟩
  refine h.patchSegments_of_keptAs (forall₂_keptAs hwritten')
    (howners ▸ hperm.nodup_iff.2 h.nodup_order) ?_ (h.undeclared_withStubs _)
  rw [h.filter_orderedElements_eq_nil fun id hid => howners ▸ hperm.mem_iff.2 hid, hlines]
  rfl

/-- Where the missing blocks have gone into a written block, that block is written anew, and they go
to the same place again. -/
theorem Readable.exists_again_of_inside {a b : List Segment} {d : Drawing} {indent : List Char}
    (hindent : indent.all isBlank = true) (hsegmented : Segmented (a ++ d.segment indent :: b))
    (hwritten : ∀ part ∈ a ++ d.segment indent :: b, s.Leaves part)
    (hget : s.elements.get? d.element.id = some d.element)
    (hnodup : (ownersOf (a ++ d.segment indent :: b)).Nodup) {ds : List Drawing} (hne : ds ≠ [])
    (hds : ds.map Drawing.element =
      s.orderedElements.filter fun e => e.id ∉ ownersOf (a ++ d.segment indent :: b))
    {p : InsertionPoint}
    (hp : insertionPoint? ((a ++ d.segment indent :: b).flatMap Segment.lines) = some p)
    (hbefore : p.before = a.flatMap Segment.lines ++ (d.lines indent).dropLast) {ls : List Line}
    (hls : ls = p.before ++ (ds.flatMap fun d => d.lines p.indent) ++ p.after) :
    ∃ again, again.flatMap Segment.lines = s.withStubs ls ∧ Segmented again ∧
      ownersOf again = ownersOf (a ++ d.segment indent :: b) ∧
      s.patchSegments again = .ok (s.withStubs ls) := by
  set run := ds.flatMap fun d => d.lines p.indent with hrun
  have hafter : p.after = [indent ++ "UiPop()".toList] ++ b.flatMap Segment.lines := by
    have hcut := append_of_insertionPoint? hp
    rw [hbefore, List.flatMap_append, List.flatMap_cons, d.lines_segment, d.lines_eq_concat,
      List.dropLast_concat, List.append_assoc, List.append_assoc] at hcut
    exact List.append_cancel_left (List.append_cancel_left hcut)
  have hinserted : Segmented (a ++ [d.inserted indent run] ++ b) := by
    rw [← List.append_cons]
    exact d.segmented_inserted hindent hsegmented
      (Drawing.filler_flatMap (all_isBlank_of_insertionPoint? hp) ds)
  rw [List.forall_mem_append, List.forall_mem_cons] at hwritten
  have hcallee := h.isCallee_of_mem_undeclared ls
  obtain ⟨b', hagain, hwritten', howners, happend⟩ :=
    exists_stubbed hinserted hwritten.2.2 hcallee
  rw [← List.append_cons] at hagain
  -- the lines from the last one of the block on, with the stubs
  have hstubs : ∀ front : List Line,
      appendLines (front ++ p.after) ((undeclared ls s.handlers).map handlerStub) =
        front ++ [indent ++ "UiPop()".toList] ++ b'.flatMap Segment.lines := by
    intro front
    rw [hafter, ← List.append_assoc]
    exact happend _ (by simp)
  have hlines : s.withStubs ls = (a ++ d.inserted indent run :: b').flatMap Segment.lines := by
    have hend := hstubs (p.before ++ run)
    rw [← hls] at hend
    rw [withStubs, hend, hbefore, List.flatMap_append, List.flatMap_cons, d.lines_inserted]
    simp only [List.append_assoc]
  have hkept : List.Forall₂ s.KeptAs (a ++ d.inserted indent run :: b')
      (a.map Segment.lines ++ d.lines indent :: b'.map Segment.lines) :=
    List.rel_append (forall₂_keptAs hwritten.1)
      (.cons (.block d hindent hget _) (forall₂_keptAs hwritten'))
  have howners' : ownersOf (a ++ d.inserted indent run :: b') =
      ownersOf (a ++ d.segment indent :: b) := by
    have hcons : ∀ part : Segment, part.owner? = some d.element.id → ∀ parts,
        ownersOf (part :: parts) = d.element.id :: ownersOf parts :=
      fun part hpart parts => List.filterMap_cons_some hpart
    rw [ownersOf_append, ownersOf_append, hcons _ rfl, hcons _ rfl, howners]
  refine ⟨_, hlines.symm, hagain, howners', h.patchSegments_of_keptAs hkept (howners' ▸ hnodup) ?_
    (h.undeclared_withStubs ls)⟩
  -- written anew, the script lacks the same blocks and has the same place for them
  have hflatten : (a.map Segment.lines ++ d.lines indent :: b'.map Segment.lines).flatten =
      appendLines (p.before ++ p.after) ((undeclared ls s.handlers).map handlerStub) := by
    rw [hstubs, hbefore, List.flatten_append, List.flatten_cons, ← List.flatMap_def,
      ← List.flatMap_def]
    conv_lhs => rw [d.lines_eq_concat]
    simp only [List.append_assoc]
  rw [howners', ← hds, hflatten, append_of_insertionPoint? hp, addBlocks,
    if_neg (by simpa using hne), insertionPoint?_appendLines hp hcallee]
  dsimp only
  have happended := appendLines_append (a := p.before ++ run) (b := p.after) (by simp [hafter])
    ((undeclared ls s.handlers).map handlerStub)
  rw [← hls] at happended
  rw [Drawing.blocksOf_eq, withStubs, happended]
  rfl

end Again

/-- That a patch leaves the rest of a script what it is: no line outside the blocks comes to own a
block, and no carriage return at the end of the script is taken for a part of a line break. -/
structure Steady (s : Scene) (parts : List Segment) : Prop where
  outside : ∀ front l back, parts = front ++ .line l :: back → ∀ chunks,
    s.Rewrites (front ++ [.line l]) back chunks → OwnsNothing l chunks.flatten
  last : ∀ chunks, s.Rewrites [] parts chunks →
    ∀ l ∈ chunks.flatten.getLast?, l.getLast? ≠ some '\r'

/-- The lines that a patch writes are segments that it does not change. -/
theorem Readable.exists_again (h : s.Readable) {parts : List Segment} (hsteady : s.Steady parts)
    {chunks : List (List Line)} (hrewrites : s.Rewrites [] parts chunks) {ds : List Drawing}
    (hds : ds.map Drawing.element = s.orderedElements.filter fun e => e.id ∉ ownersOf parts)
    {ls : List Line} (hadd : addBlocks chunks.flatten (ds.map Drawing.element) = .ok ls) :
    ∃ again, again.flatMap Segment.lines = s.withStubs ls ∧ Segmented again ∧
      (ownersOf again = [] ↔ s.order = []) ∧ s.patchSegments again = .ok (s.withStubs ls) := by
  obtain ⟨written, hlines, hsegmented, hwritten, hnodup, hmem⟩ :=
    h.exists_written hrewrites hsteady.outside
  rw [← hlines] at hadd
  have hperm : (ownersOf written ++ ds.map fun d => d.element.id).Perm s.order := by
    rw [h.map_id_of_missing hds]
    exact h.perm_order hnodup fun id => (hmem id).trans (by simp [ownersOf])
  have hget : ∀ d ∈ ds, s.elements.get? d.element.id = some d.element := fun d hd =>
    h.get?_of_mem (List.mem_of_mem_filter (hds ▸ List.mem_map_of_mem hd))
  rcases exists_place hsegmented hwritten hget hadd with
    ⟨all, rfl, hall, hwritten', hperm'⟩ |
    ⟨hne, a, b, d, indent, p, hindent, rfl, hd, hp, hbefore, hls⟩
  · obtain ⟨again, hagain, hsegmented', howners, hpatch⟩ :=
      h.exists_again_of_perm hall hwritten' (hperm'.trans hperm)
    refine ⟨again, hagain, hsegmented', ?_, hpatch⟩
    rw [howners, ← List.length_eq_zero_iff, ← List.length_eq_zero_iff,
      (hperm'.trans hperm).length_eq]
  · have hfilter : (s.orderedElements.filter fun e => e.id ∉ ownersOf parts) =
        s.orderedElements.filter fun e => e.id ∉ ownersOf (a ++ d.segment indent :: b) := by
      refine List.filter_congr fun e he => ?_
      have hkey : e.id ∈ s.elements.keys :=
        Table.contains_iff.1 (contains_of_mem_orderedElements h.keys he)
      rw [decide_eq_decide, hmem]
      exact not_congr ⟨fun hid => ⟨hid, List.not_mem_nil, hkey⟩, And.left⟩
    obtain ⟨again, hagain, hsegmented', howners, hpatch⟩ := h.exists_again_of_inside hindent
      hsegmented hwritten hd hnodup hne (hds.trans hfilter) hp hbefore hls
    refine ⟨again, hagain, hsegmented', ?_, hpatch⟩
    rw [howners]
    refine ⟨fun hnil => ?_, fun hnil => ?_⟩
    · simp [ownersOf, Drawing.segment, Segment.owner?] at hnil
    · rw [hnil, List.perm_nil, List.append_eq_nil_iff, List.map_eq_nil_iff] at hperm
      exact absurd hperm.2 hne

/-! ## Reading a patched script back -/

/-- What a script becomes are lines outside its blocks, and lines that end in no carriage return. -/
theorem Readable.line_mem_of_rewrites (h : s.Readable) {before parts : List Segment}
    {chunks : List (List Line)} (hrewrites : s.Rewrites before parts chunks) :
    ∀ l ∈ chunks.flatten, .line l ∈ parts ∨ l.getLast? ≠ some '\r' := by
  induction hrewrites with
  | nil => simp
  | @cons before parts part chunk chunks head _ ih =>
    intro l hl
    rcases List.mem_append.1 hl with hl | hl
    · rcases h.rewritten_cases head with ⟨k, rfl, rfl⟩ | ⟨id, marker, region, rfl, rfl, -⟩ |
        ⟨d, marker, region, rfl, rfl, -⟩
      · exact .inl (List.mem_singleton.1 hl ▸ List.mem_cons_self)
      · cases hl
      · exact .inr (LineBreak.getLast?_ne_of_mem_lines d l hl)
    · exact (ih l hl).imp_left (List.mem_cons_of_mem _)

/-- A script whose lines outside the blocks name no owner and end in no carriage return is
steady. -/
theorem Readable.steady_of_namesNoOwner (h : s.Readable) {parts : List Segment}
    (houtside : ∀ l, .line l ∈ parts → NamesNoOwner l)
    (hlast : ∀ l, .line l ∈ parts → l.getLast? ≠ some '\r') : s.Steady parts := by
  refine ⟨fun front l back heq chunks _ => ?_, fun chunks hrewrites l hl => ?_⟩
  · obtain ⟨marker?, hread, howner⟩ := houtside l (by simp [heq])
    exact ⟨marker?, hread, ownedBlock?_of_owner? howner _⟩
  · exact (h.line_mem_of_rewrites hrewrites l (List.mem_of_getLast? hl)).elim (hlast l) id

/-- In a steady script the segments become lines that can be joined and read back. -/
theorem Readable.joins_of_rewrites (h : s.Readable) {text : List Char} {parts : List Segment}
    (hparts : segments ((LineBreak.ofText text).lines text) = .ok parts)
    (hsteady : s.Steady parts) {chunks : List (List Line)}
    (hrewrites : s.Rewrites [] parts chunks) :
    (LineBreak.ofText text).Joins chunks.flatten := by
  have hlines := lines_segments hparts
  refine ⟨h.lineFeed_notMem_of_rewrites hrewrites
    (hlines ▸ LineBreak.lineFeed_notMem_of_mem_lines), fun hlf l hl => ?_,
    hsteady.last chunks hrewrites⟩
  rcases h.line_mem_of_rewrites hrewrites l hl with hmem | hlast
  · obtain ⟨front, back, rfl⟩ := List.append_of_mem hmem
    rcases List.eq_nil_or_concat' back with rfl | ⟨back, part, rfl⟩
    · exact hsteady.last chunks hrewrites l hrewrites.getLast?_flatten
    · -- only the last line of the script may end in a carriage return
      refine LineBreak.getLast?_ne_of_ofText hlf l ?_
      rw [hlf, LineBreak.lines] at hlines
      have hne : (back ++ [part]).flatMap Segment.lines ≠ [] := by
        cases part <;> simp [Segment.lines]
      rw [← hlines, List.flatMap_append, List.flatMap_cons,
        List.dropLast_append_of_ne_nil (by simp [Segment.lines]),
        List.dropLast_append_of_ne_nil hne]
      exact List.mem_append_right _ (List.mem_append_left _ (List.mem_singleton_self l))
  · exact hlast

/-- With new blocks they still can. -/
theorem exists_addBlocks_joins {b : LineBreak} {ls : List Line} (hjoins : b.Joins ls)
    (ds : List Drawing) :
    ∃ ls', addBlocks ls (ds.map Drawing.element) = .ok ls' ∧ b.Joins ls' := by
  have hreadable : ∀ e ∈ ds.map Drawing.element, e.Readable := by
    intro e he
    obtain ⟨d, -, rfl⟩ := List.mem_map.1 he
    exact d.readable
  obtain ⟨front, back, indent, run, rfl, hrun, hadd, hfeed, -⟩ := exists_addBlocks hreadable ls
  rw [Drawing.blocksOf_eq] at hrun
  refine ⟨_, hadd, hjoins.insert fun l hl => ⟨hfeed hjoins.lineFeed l hl, ?_⟩⟩
  rw [← Except.ok.inj hrun] at hl
  obtain ⟨d, -, hl⟩ := List.mem_flatMap.1 hl
  exact LineBreak.getLast?_ne_of_mem_lines d l hl

/-- And with stubs. -/
theorem Readable.joins_withStubs (h : s.Readable) {b : LineBreak} {ls : List Line}
    (hjoins : b.Joins ls) : b.Joins (s.withStubs ls) := by
  obtain ⟨front, back, hcut, happend, -⟩ :=
    exists_appendLines_eq ls ((undeclared ls s.handlers).map handlerStub)
  rw [hcut] at hjoins
  rw [withStubs, happend]
  refine hjoins.insert fun l hl => ?_
  obtain ⟨name, hname, rfl⟩ := List.mem_map.1 hl
  have hcallee := h.isCallee_of_mem_undeclared ls name hname
  exact LineBreak.plain_of_flat (isStatement_handlerStub hcallee).flat

/-- Lines that a patch leaves as they are, joined to a script. -/
theorem patch_join {b : LineBreak} {ls : List Line} (hjoins : b.Joins ls) {parts : List Segment}
    (hparts : segments ls = .ok parts) (hblock : parts.any Segment.isBlock = true)
    (hpatch : s.patchSegments parts = .ok ls) :
    s.patch (join b.text ls) = .ok (join b.text ls) := by
  have hlength := two_le_length_of_isBlock hparts hblock
  have hbreak := hjoins.ofText_join hlength
  have hlines := hjoins.lines_join (List.length_pos_iff.1 (by omega))
  have hpatched : s.patch (join b.text ls) =
      .ok (join (LineBreak.ofText (join b.text ls)).text ls) :=
    patch_of_block (by rwa [hbreak, hlines]) hblock hpatch
  rwa [hbreak] at hpatched

/-- Lines without a block, joined to a script, are replaced by the whole script. -/
theorem patch_join_of_not_block {b : LineBreak} {ls : List Line} (hjoins : b.Joins ls)
    {parts : List Segment} (hparts : segments ls = .ok parts)
    (hblock : parts.any Segment.isBlock = false) : s.patch (join b.text ls) =
      s.script.map (replaceChar '\n' (LineBreak.ofText (join b.text ls)).text) := by
  by_cases hnil : ls = []
  · subst hnil
    have hlast : segments [[]] = .ok [.line []] := by rw [segments]
    exact patch_of_not_block hlast rfl
  · exact patch_of_not_block (by rwa [hjoins.lines_ofText_join hnil]) hblock

/-- The segments of the whole script stay as they are. -/
theorem Readable.patchSegments_script (h : s.Readable) {ds : List Drawing}
    (hds : ds.map Drawing.element = s.orderedElements) :
    ∃ parts, segments (Drawing.scriptLines ds s.handlers ++ [[]]) = .ok parts ∧
      s.patchSegments parts = .ok (Drawing.scriptLines ds s.handlers ++ [[]]) := by
  have hsegments := Drawing.segments_scriptLines ds h.isCallee_of_mem_handlers
  have hlines := lines_segments hsegments
  refine ⟨_, hsegments, ?_⟩
  set behind := footerLines ++ (s.handlers.map handlerStub ++ [[]])
  have howners : ownersOf (headerLines.map .line ++
      ((ds.map fun d => d.segment (indentStep ++ indentStep)) ++ behind.map .line)) = s.order := by
    rw [ownersOf_append, ownersOf_append, ownersOf_lines, ownersOf_lines, ownersOf_segments,
      List.nil_append, List.append_nil, ← h.map_id_orderedElements, ← hds, List.map_map]
    rfl
  refine h.patchSegments_of_keptAs (forall₂_keptAs ?_) (howners ▸ h.nodup_order) ?_ ?_
  · simp only [List.forall_mem_append]
    refine ⟨leaves_of_mem_lines, fun part hpart => ?_, leaves_of_mem_lines⟩
    obtain ⟨d, hd, rfl⟩ := List.mem_map.1 hpart
    exact .block d (by decide) (h.get?_of_mem (hds ▸ List.mem_map_of_mem hd))
  · rw [howners, h.filter_orderedElements_eq_nil fun _ hid => hid, ← List.flatMap_def, hlines]
    rfl
  · refine List.filter_eq_nil_iff.2 fun name hname => ?_
    have hdeclared := any_declaresFunction_of_mem (h.isCallee_of_mem_handlers name hname) hname
      (ds.flatMap fun d => d.lines (indentStep ++ indentStep))
    rw [Drawing.scriptLines, hdeclared]
    exact Bool.false_ne_true

/-- A whole script stays as it is when it is patched. -/
theorem Readable.exists_patch_script (h : s.Readable) (b : LineBreak) :
    ∃ script, s.script = .ok script ∧
      s.patch (replaceChar '\n' b.text script) = .ok (replaceChar '\n' b.text script) := by
  obtain ⟨ds, hds⟩ := h.exists_drawings
  obtain ⟨parts, hsegments, hpatch⟩ := h.patchSegments_script hds
  refine ⟨Drawing.code ds s.handlers, s.script_eq hds, ?_⟩
  have hplain : ∀ l ∈ Drawing.scriptLines ds s.handlers ++ [[]], LineBreak.Plain l := by
    intro l hl
    rcases List.mem_append.1 hl with hl | hl
    · exact LineBreak.plain_of_flat
        (Drawing.flat_of_mem_scriptLines ds h.isCallee_of_mem_handlers l hl)
    · rw [List.mem_singleton.1 hl]
      exact ⟨List.not_mem_nil, by simp⟩
  have hjoins : b.Joins (Drawing.scriptLines ds s.handlers ++ [[]]) := .of_plain hplain
  have hcode : replaceChar '\n' b.text (Drawing.code ds s.handlers) =
      join b.text (Drawing.scriptLines ds s.handlers ++ [[]]) :=
    replaceChar_join fun l hl => (hplain l hl).lineFeed
  cases hblock : parts.any Segment.isBlock with
  | true => rw [hcode, patch_join hjoins hsegments hblock hpatch]
  | false =>
    have hlength : 2 ≤ (Drawing.scriptLines ds s.handlers ++ [[]]).length := by
      simp [Drawing.scriptLines, writtenLines, headerLines]
    rw [hcode, patch_join_of_not_block hjoins hsegments hblock, s.script_eq hds,
      hjoins.ofText_join hlength, ← hcode]
    rfl

/-! ## Patching twice -/

/-- Patching a steady script a second time changes nothing, whether the first time has written the
whole script or has replaced blocks, with the missing blocks between the others or in one of them,
and stubs at the end. Only when the first time has left no block, since the scene is empty, does the
second one write the whole script. -/
theorem Readable.patch_patch (h : s.Readable) {text : List Char} {parts : List Segment}
    (hparts : segments ((LineBreak.ofText text).lines text) = .ok parts)
    (hsteady : parts.any Segment.isBlock = true → s.Steady parts) :
    ∃ text' script, s.patch text = .ok text' ∧ s.script = .ok script ∧
      s.patch text' = .ok (if s.order = [] ∧ parts.any Segment.isBlock = true
        then replaceChar '\n' (LineBreak.ofText text').text script else text') := by
  obtain ⟨script, hscript, hwhole⟩ := h.exists_patch_script (LineBreak.ofText text)
  cases hblock : parts.any Segment.isBlock with
  | false =>
    refine ⟨replaceChar '\n' (LineBreak.ofText text).text script, script, ?_, hscript, ?_⟩
    · rw [patch_of_not_block hparts hblock, hscript]
      rfl
    · rw [if_neg fun hand => Bool.false_ne_true hand.2, hwhole]
  | true =>
    have hsteady := hsteady hblock
    have hreadable : ∀ e ∈ s.orderedElements.filter fun e => e.id ∉ ownersOf parts, e.Readable :=
      fun e he => h.readable_of_mem (List.mem_of_mem_filter he)
    obtain ⟨ds, hds⟩ := Drawing.exists_of_forall hreadable
    obtain ⟨chunks, hrewrites, hsegments⟩ := h.exists_patchSegments parts
    have hchunks := h.joins_of_rewrites hparts hsteady hrewrites
    obtain ⟨ls, hadd, hjoins⟩ := exists_addBlocks_joins hchunks ds
    have hwithStubs := h.joins_withStubs hjoins
    obtain ⟨again, hagain, hsegmented, howners, hpatch⟩ :=
      h.exists_again hsteady hrewrites hds hadd
    have hsegments' := hagain ▸ hsegmented.segments_eq
    refine ⟨_, script, patch_of_block hparts hblock (hsegments ls (hds ▸ hadd)), hscript, ?_⟩
    by_cases horder : s.order = []
    · -- nothing is left that has a block
      have hnone : again.any Segment.isBlock = false :=
        Bool.eq_false_iff.2 fun hany => any_isBlock_iff.1 hany (howners.2 horder)
      have hagain := patch_join_of_not_block (s := s) hwithStubs hsegments' hnone
      rw [hscript] at hagain
      rw [if_pos ⟨horder, rfl⟩]
      exact hagain
    · rw [if_neg fun hand => horder hand.1]
      exact patch_join hwithStubs hsegments' (any_isBlock_iff.2 (mt howners.1 horder)) hpatch

/-- The segments of a drawing function that opens no block of its own. -/
def unwrappedParts : List Segment :=
  [.line "function draw()".toList,
    .block "a" "--TDGUI id=a type=rect".toList
      ["UiPush()".toList, "UiRect(1, 1)".toList, "UiPop()".toList],
    .line "end".toList, .line []]

theorem segmented_unwrappedParts : Segmented unwrappedParts := by
  have hread : ∀ l ∈ ["function draw()".toList, "end".toList, []], Marker.read l = .ok none := by
    simp only [List.forall_mem_cons]
    exact ⟨read_of_afterWord? (by decide), read_of_afterWord? (by decide),
      read_of_afterWord? (by decide), by simp⟩
  have hregion : leadingRegion? ["UiPush()".toList, "UiRect(1, 1)".toList, "UiPop()".toList] =
      some (["UiPush()".toList, "UiRect(1, 1)".toList, "UiPop()".toList], []) := by
    decide +kernel
  exact .line (ownsNothing_of_read (hread _ (by simp)) _)
    (.block ⟨⟨_, rfl, rfl⟩, isLeading_of_leadingRegion? hregion⟩
      (.line (ownsNothing_of_read (hread _ (by simp)) _)
        (.line (ownsNothing_of_read (hread _ (by simp)) _) .nil)))

/-- A second box goes into the block of the first, and stays there. -/
theorem patch_patch_twoBoxes : ∃ text', twoBoxes.patch unwrappedScript = .ok text' ∧
    twoBoxes.patch text' = .ok text' := by
  have hlines : (LineBreak.ofText unwrappedScript).lines unwrappedScript =
      unwrappedParts.flatMap Segment.lines := by
    decide +kernel
  have hoff : ∀ l, .line l ∈ unwrappedParts →
      afterWord? Marker.word (trim l) = none ∧ l.getLast? ≠ some '\r' := by
    intro l hl
    simp only [unwrappedParts, List.mem_cons, Segment.line.injEq, reduceCtorEq, List.not_mem_nil,
      or_false, false_or] at hl
    rcases hl with rfl | rfl | rfl <;> decide
  obtain ⟨text', script, hfirst, -, hsecond⟩ := readable_twoBoxes.patch_patch
    (hlines ▸ segmented_unwrappedParts.segments_eq) fun _ =>
      readable_twoBoxes.steady_of_namesNoOwner
        (fun l hl => namesNoOwner_of_read (read_of_afterWord? (hoff l hl).1))
        fun l hl => (hoff l hl).2
  rw [if_neg fun hand => absurd hand.1 (by decide +kernel)] at hsecond
  exact ⟨text', hfirst, hsecond⟩

/-- A comment, and a block. -/
def emptiedScript : List Char := "-- mine\n--TDGUI id=a\nUiPush()\nUiPop()\n".toList

/-- A marker that owns nothing, a block, and lines behind it that the marker might own. -/
def strayScript : List Char :=
  "--TDGUI id=a\n--TDGUI id=b\nUiPush()\nUiPop()\nUiPush()\n-- mine\nUiPop()\n".toList

/-- A script with two carriage returns at its end. -/
def returnsScript : List Char := "--TDGUI id=a\r\nUiPush()\r\nUiPop()\r\n-- mine\r\r".toList

/-- A scene of one label. -/
def oneLabel : Scene := empty.add (Element.ofType .text "a" 0 0)

/-- Patching again changes a script that a patch has left without blocks, one in which it has moved
lines up to a marker, and one that ends in a carriage return. -/
theorem patch_patch_ne : empty.Readable ∧ oneLabel.Readable ∧
    (empty.patch emptiedScript).bind empty.patch ≠ empty.patch emptiedScript ∧
    (oneLabel.patch strayScript).bind oneLabel.patch ≠ oneLabel.patch strayScript ∧
    (oneLabel.patch returnsScript).bind oneLabel.patch ≠ oneLabel.patch returnsScript := by
  refine ⟨readable_empty, readable_empty.add (Element.readable_ofType rfl (by decide) (by decide)
    (by decide +kernel) (by decide +kernel)) (by decide), ?_, ?_, ?_⟩
  all_goals decide +kernel

end Scene

end SceneScript
