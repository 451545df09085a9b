import SceneScript.Proofs.Script.Patch

/-!
# What a patch leaves alone

A patch works on segments: lines stay, blocks are written anew or go, new blocks are put in at one
place, and stubs are put in at the end. `PatchLayout` is the list of those parts,
`PatchLayout.IsFor` says what each of them is, and `PatchLayout.lines` puts them together.

Main statement: a script with a block in it and a readable scene have such a layout, and the patched
script is its lines (`Scene.Readable.exists_layout`). So a line outside all blocks is neither lost
nor moved, and a final line break is kept unless nothing at all is left.
-/

namespace SceneScript

open Lua Text

/-! ## Owners and rewriting -/

/-- The owner of a segment: blocks have one, lines have none. -/
def Segment.owner? : Segment → Option String
  | .line _ => none
  | .block id _ _ => some id

/-- The owners of the blocks of a script, in order. -/
def ownersOf (parts : List Segment) : List String := parts.filterMap Segment.owner?

theorem ownersOf_append (a b : List Segment) : ownersOf (a ++ b) = ownersOf a ++ ownersOf b :=
  List.filterMap_append

theorem ownersOf_lines (ls : List Line) : ownersOf (ls.map .line) = [] := by
  simp [ownersOf, Segment.owner?]

theorem ownersOf_segments (ds : List Drawing) (indent : List Char) :
    ownersOf (ds.map fun d => d.segment indent) = ds.map fun d => d.element.id := by
  rw [ownersOf, List.filterMap_map]
  exact congrFun (List.filterMap_eq_map (f := fun d : Drawing => d.element.id)) ds

theorem mem_ownersOf_cons {id : String} {part : Segment} {parts : List Segment} :
    id ∈ ownersOf (part :: parts) ↔ part.owner? = some id ∨ id ∈ ownersOf parts := by
  simp [ownersOf]

theorem mem_ownersOf_concat {id : String} {parts : List Segment} {part : Segment} :
    id ∈ ownersOf (parts ++ [part]) ↔ id ∈ ownersOf parts ∨ part.owner? = some id := by
  rw [ownersOf_append, List.mem_append, mem_ownersOf_cons]
  simp [ownersOf]

/-- The lines outside the blocks of a script. -/
def linesOutside (parts : List Segment) : List Line :=
  parts.flatMap fun
    | .line l => [l]
    | .block _ _ _ => []

theorem linesOutside_append (a b : List Segment) :
    linesOutside (a ++ b) = linesOutside a ++ linesOutside b :=
  List.flatMap_append

theorem mem_linesOutside {l : Line} {parts : List Segment} :
    l ∈ linesOutside parts ↔ .line l ∈ parts := by
  rw [linesOutside, List.mem_flatMap]
  constructor
  · rintro ⟨part, hpart, hl⟩
    cases part with
    | line k => exact List.mem_singleton.1 hl ▸ hpart
    | block id marker region => cases hl
  · exact fun hl => ⟨_, hl, List.mem_singleton_self l⟩

/-- What becomes of a segment behind others: a line stays, the first block of an element is written
anew at its indent, and any other block goes. -/
def Scene.rewritten (s : Scene) (before : List Segment) :
    Segment → Except NumberError (List Line)
  | .line l => .ok [l]
  | .block id marker _ =>
    match s.elements.get? id with
    | some e => if id ∈ ownersOf before then .ok [] else e.block (indentOf marker)
    | none => .ok []

/-- The lines that segments behind others become, segment by segment. -/
inductive Scene.Rewrites (s : Scene) : List Segment → List Segment → List (List Line) → Prop
  | nil (before : List Segment) : Rewrites s before [] []
  | cons {before parts : List Segment} {part : Segment} {chunk : List Line}
      {chunks : List (List Line)} (head : s.rewritten before part = .ok chunk)
      (tail : Rewrites s (before ++ [part]) parts chunks) :
      Rewrites s before (part :: parts) (chunk :: chunks)

namespace Scene

variable {s : Scene} {before parts : List Segment} {chunks : List (List Line)}

theorem Rewrites.exists_append {back : List Segment}
    (h : s.Rewrites before (parts ++ back) chunks) :
    ∃ front rest, chunks = front ++ rest ∧ s.Rewrites before parts front ∧
      s.Rewrites (before ++ parts) back rest := by
  induction parts generalizing before chunks with
  | nil => exact ⟨[], chunks, rfl, .nil before, (List.append_nil before).symm ▸ h⟩
  | cons part parts ih =>
    cases h with
    | cons head tail =>
      obtain ⟨front, rest, rfl, hfront, hrest⟩ := ih tail
      exact ⟨_ :: front, rest, rfl, .cons head hfront, by simpa using hrest⟩

/-- A last line stays the last line. -/
theorem Rewrites.getLast?_flatten {l : Line} (h : s.Rewrites before (parts ++ [.line l]) chunks) :
    chunks.flatten.getLast? = some l := by
  obtain ⟨front, rest, rfl, -, hrest⟩ := h.exists_append
  cases hrest with
  | cons head tail =>
    cases tail
    obtain rfl := Except.ok.inj head
    simp

/-- What becomes of a segment: a line stays, a block goes that has no element or is not the first of
it, and any other block is that of its element, at the indent of its marker. -/
theorem Readable.rewritten_cases (h : s.Readable) {part : Segment} {chunk : List Line}
    (head : s.rewritten before part = .ok chunk) :
    (∃ l, part = .line l ∧ chunk = [l]) ∨
    (∃ id marker region, part = .block id marker region ∧ chunk = [] ∧
      (id ∉ s.elements.keys ∨ id ∈ ownersOf before)) ∨
    ∃ (d : Drawing) (marker : Line) (region : List Line),
      part = .block d.element.id marker region ∧ chunk = d.lines (indentOf marker) ∧
      s.elements.get? d.element.id = some d.element ∧ d.element.id ∉ ownersOf before := by
  cases part with
  | line l => exact .inl ⟨l, rfl, (Except.ok.inj head).symm⟩
  | block id marker region =>
    rw [rewritten] at head
    split at head
    · next e hget =>
      split at head
      · next hid => exact .inr (.inl ⟨id, marker, region, rfl, (Except.ok.inj head).symm, .inr hid⟩)
      · next hid =>
        obtain ⟨d, rfl⟩ := Drawing.exists_of_readable (h.elements _ (Table.mem_of_get? hget))
        obtain rfl : d.element.id = id := h.id_of_get? hget
        exact .inr (.inr ⟨d, marker, region, rfl,
          (Except.ok.inj ((d.block_eq _).symm.trans head)).symm, hget, hid⟩)
    · next hget =>
      exact .inr (.inl ⟨id, marker, region, rfl, (Except.ok.inj head).symm,
        .inl (Table.get?_eq_none_iff.1 hget)⟩)

/-- A segment behind others is replaced by what it becomes, and the ids placed are those of the
blocks that the scene has. -/
theorem Readable.exists_rewritten (h : s.Readable) {placed : List String}
    (hplaced : ∀ id, id ∈ placed ↔ id ∈ ownersOf before ∧ id ∈ s.elements.keys) (part : Segment) :
    ∃ chunk placed', s.rewritten before part = .ok chunk ∧
      (∀ id, id ∈ placed' ↔ id ∈ ownersOf (before ++ [part]) ∧ id ∈ s.elements.keys) ∧
      ∀ parts, s.replaceBlocks placed (part :: parts) =
        (s.replaceBlocks placed' parts).map fun r => (chunk ++ r.1, r.2) := by
  cases part with
  | line l =>
    refine ⟨[l], placed, rfl, fun id => ?_, s.replaceBlocks_lines placed [l]⟩
    rw [hplaced, mem_ownersOf_concat]
    simp [Segment.owner?]
  | block id marker region =>
    have howners : ∀ key, key ∈ ownersOf (before ++ [.block id marker region]) ↔
        key ∈ ownersOf before ∨ id = key := by
      simp [mem_ownersOf_concat, Segment.owner?]
    simp only [rewritten, replaceBlocks]
    cases hget : s.elements.get? id with
    | none =>
      refine ⟨[], placed, rfl, fun key => ?_, s.replaceBlocks_lines placed []⟩
      have hnot := Table.get?_eq_none_iff.1 hget
      rw [hplaced, howners]
      aesop
    | some e =>
      have hid : id ∈ s.elements.keys := Table.mem_keys_of_get? hget
      by_cases hbefore : id ∈ ownersOf before
      · have hcontains : placed.contains id = true := by
          simpa using (hplaced id).2 ⟨hbefore, hid⟩
        rw [hcontains]
        refine ⟨[], placed, if_pos hbefore, fun key => ?_, s.replaceBlocks_lines placed []⟩
        rw [hplaced, howners]
        aesop
      · have hcontains : placed.contains id = false := by
          simpa using fun hmem => hbefore ((hplaced id).1 hmem).1
        obtain ⟨d, rfl⟩ := Drawing.exists_of_readable (h.elements _ (Table.mem_of_get? hget))
        rw [hcontains]
        dsimp only
        rw [if_neg hbefore, d.block_eq]
        refine ⟨_, id :: placed, rfl, fun key => ?_, fun parts => ?_⟩
        · rw [List.mem_cons, hplaced, howners]
          aesop
        · cases s.replaceBlocks (id :: placed) parts with
          | error err => rfl
          | ok r => rfl

/-- So are all segments. -/
theorem Readable.exists_rewrites (h : s.Readable) {placed : List String}
    (hplaced : ∀ id, id ∈ placed ↔ id ∈ ownersOf before ∧ id ∈ s.elements.keys)
    (parts : List Segment) : ∃ chunks placed', s.Rewrites before parts chunks ∧
      s.replaceBlocks placed parts = .ok (chunks.flatten, placed') ∧
      ∀ id, id ∈ placed' ↔ id ∈ ownersOf (before ++ parts) ∧ id ∈ s.elements.keys := by
  induction parts generalizing before placed with
  | nil => exact ⟨[], placed, .nil before, rfl, by simpa using hplaced⟩
  | cons part parts ih =>
    obtain ⟨chunk, placed₁, hchunk, hplaced₁, hreplace⟩ := h.exists_rewritten hplaced part
    obtain ⟨chunks, placed', hrewrites, hrest, hplaced'⟩ := ih hplaced₁
    refine ⟨chunk :: chunks, placed', .cons hchunk hrewrites, ?_, by simpa using hplaced'⟩
    rw [hreplace, hrest]
    rfl

end Scene

/-! ## The last line -/

/-- An empty last line is in no block. -/
theorem exists_append_of_segments {ls front : List Line} {parts : List Segment}
    (h : segments ls = .ok parts) (hlast : ls = front ++ [[]]) :
    ∃ before, parts = before ++ [.line []] := by
  fun_induction segments ls generalizing parts front with
  | case1 => simp at hlast
  | case2 l =>
    obtain rfl := Except.ok.inj h
    obtain ⟨rfl, rfl⟩ : front = [] ∧ l = [] := by simpa [List.singleton_eq_append_iff] using hlast
    exact ⟨[], rfl⟩
  | case3 => simp at h
  | case4 l next ls marker? hm ho ih =>
    obtain ⟨parts, hparts, rfl⟩ := map_eq_ok.1 h
    cases front with
    | nil => simp at hlast
    | cons k front =>
      obtain ⟨before, rfl⟩ := ih hparts (List.cons.inj hlast).2
      exact ⟨.line l :: before, rfl⟩
  | case5 l next ls marker? hm id region rest ho ih =>
    obtain ⟨parts, hparts, rfl⟩ := map_eq_ok.1 h
    cases front with
    | nil => simp at hlast
    | cons k front =>
      have hrest : region ++ rest = front ++ [[]] :=
        (append_of_ownedBlock? ho).trans (List.cons.inj hlast).2
      obtain ⟨inner, closing, rfl, hclosing⟩ :=
        (isLeading_of_leadingRegion? (ownedBlock?_eq_some_iff.1 ho).2).exists_last
      rcases List.eq_nil_or_concat rest with rfl | ⟨rest, l', rfl⟩
      · -- the block would end on the empty line
        rw [List.append_nil] at hrest
        obtain ⟨-, heq⟩ := List.append_inj' hrest rfl
        rw [List.singleton_inj.1 heq, statements_of_blank rfl] at hclosing
        exact absurd rfl hclosing
      · rw [List.concat_eq_append, ← List.append_assoc] at hrest
        obtain ⟨-, heq⟩ := List.append_inj' hrest rfl
        obtain ⟨before, rfl⟩ := ih hparts (by rw [List.concat_eq_append, heq])
        exact ⟨.block id l _ :: before, rfl⟩

/-! ## Line feeds -/

theorem notMem_of_mem_split {separator : Char} {s : List Char} :
    ∀ part ∈ split separator s, separator ∉ part := by
  induction s with
  | nil => simp [split]
  | cons c s ih =>
    by_cases hc : c = separator
    · rw [split, if_pos hc]
      simpa using ih
    · rw [split, if_neg hc]
      split
      · simpa using Ne.symm hc
      · next part parts hsplit =>
        rw [hsplit] at ih
        simpa [Ne.symm hc] using ih

theorem LineBreak.lineFeed_notMem_of_mem_lines {b : LineBreak} {s : List Char} :
    ∀ l ∈ b.lines s, '\n' ∉ l := by
  cases b with
  | lf => exact notMem_of_mem_split
  | crlf =>
    intro l hl
    obtain ⟨k, hk, rfl⟩ := List.mem_map.1 hl
    have hnot := notMem_of_mem_split k hk
    rw [dropReturn]
    split
    · exact fun hmem => hnot (List.dropLast_subset k hmem)
    · exact hnot

theorem Drawing.lineFeed_notMem_of_mem_lines (d : Drawing) {indent : List Char}
    (hindent : '\n' ∉ indent) : ∀ l ∈ d.lines indent, '\n' ∉ l := by
  intro l hl
  obtain ⟨t, rfl, -, ht⟩ := d.exists_flat_of_mem_lines l hl
  rw [List.mem_append, not_or]
  exact ⟨hindent, ht.lineFeed⟩

theorem lineFeed_notMem_indentOf {l : Line} (h : '\n' ∉ l) : '\n' ∉ indentOf l :=
  fun hmem => h ((List.takeWhile_prefix _).subset hmem)

theorem Scene.Readable.lineFeed_notMem_of_rewrites {s : Scene} (h : s.Readable)
    {before parts : List Segment} {chunks : List (List Line)}
    (hrewrites : s.Rewrites before parts chunks)
    (hparts : ∀ l ∈ parts.flatMap Segment.lines, '\n' ∉ l) : ∀ l ∈ chunks.flatten, '\n' ∉ l := by
  induction hrewrites with
  | nil => simp
  | @cons before parts part chunk chunks head _ ih =>
    rw [List.flatMap_cons] at hparts
    have hchunk : ∀ l ∈ chunk, '\n' ∉ l := by
      have hpart : ∀ l ∈ part.lines, '\n' ∉ l := fun l hl => hparts l (List.mem_append_left _ hl)
      rcases h.rewritten_cases head with ⟨l, rfl, rfl⟩ | ⟨id, marker, region, rfl, rfl, -⟩ |
        ⟨d, marker, region, rfl, rfl, -⟩
      · exact hpart
      · simp
      · exact d.lineFeed_notMem_of_mem_lines
          (lineFeed_notMem_indentOf (hpart marker List.mem_cons_self))
    intro l hl
    rw [List.flatten_cons] at hl
    rcases List.mem_append.1 hl with hl | hl
    · exact hchunk l hl
    · exact ih (fun l hl => hparts l (List.mem_append_right _ hl)) l hl

/-! ## New blocks -/

/-- New blocks have the indent of a line of the script and one step more, or none. -/
theorem exists_indent_of_insertionPoint? {ls : List Line} {p : InsertionPoint}
    (h : insertionPoint? ls = some p) :
    ∃ l ∈ p.after, p.indent = indentOf l ++ indentStep := by
  unfold insertionPoint? at h
  split at h
  · simp at h
  · split at h
    · simp at h
    · obtain rfl := Option.some.inj h
      exact ⟨_, List.mem_cons_self, rfl⟩

theorem all_isBlank_of_insertionPoint? {ls : List Line} {p : InsertionPoint}
    (h : insertionPoint? ls = some p) : p.indent.all isBlank = true := by
  obtain ⟨l, -, hindent⟩ := exists_indent_of_insertionPoint? h
  rw [hindent, List.all_append, Bool.and_eq_true]
  exact ⟨by simp [indentOf], by decide⟩

theorem lineFeed_notMem_of_insertionPoint? {ls : List Line} {p : InsertionPoint}
    (h : insertionPoint? ls = some p) (hls : ∀ l ∈ ls, '\n' ∉ l) : '\n' ∉ p.indent := by
  obtain ⟨l, hl, hindent⟩ := exists_indent_of_insertionPoint? h
  rw [hindent, List.mem_append, not_or]
  exact ⟨lineFeed_notMem_indentOf
    (hls l (append_of_insertionPoint? h ▸ List.mem_append_right _ hl)), by decide⟩

/-- Blocks for some readable elements are put in at one place, and an empty last line stays the
last. -/
theorem exists_addBlocks {es : List Element} (hes : ∀ e ∈ es, e.Readable) (ls : List Line) :
    ∃ front back indent run, front ++ back = ls ∧ blocksOf indent es = .ok run ∧
      addBlocks ls es = .ok (front ++ run ++ back) ∧
      ((∀ l ∈ ls, '\n' ∉ l) → ∀ l ∈ run, '\n' ∉ l) ∧
      (ls.getLast? = some [] → (front ++ run ++ back).getLast? = some []) := by
  obtain ⟨ds, rfl⟩ := Drawing.exists_of_forall hes
  by_cases hne : ds = []
  · subst hne
    exact ⟨ls, [], [], [], by simp, rfl, by simp [addBlocks], by simp, by simp⟩
  have hrun : ∀ {indent : List Char}, '\n' ∉ indent →
      ∀ l ∈ ds.flatMap fun d => d.lines indent, '\n' ∉ l := by
    intro indent hindent l hl
    obtain ⟨d, -, hl⟩ := List.mem_flatMap.1 hl
    exact d.lineFeed_notMem_of_mem_lines hindent l hl
  rw [addBlocks, if_neg (by simpa using hne)]
  cases hp : insertionPoint? ls with
  | none =>
    by_cases hlast : ls.getLast? = some []
    · refine ⟨ls.dropLast, [[]], [], _, List.dropLast_append_getLast? [] hlast,
        Drawing.blocksOf_eq [] ds, ?_, fun _ => hrun (by simp), by simp⟩
      rw [Drawing.blocksOf_eq]
      exact congrArg Except.ok (if_pos hlast)
    · refine ⟨ls, [], [], _, List.append_nil ls, Drawing.blocksOf_eq [] ds, ?_,
        fun _ => hrun (by simp), fun h => absurd h hlast⟩
      rw [Drawing.blocksOf_eq, List.append_nil]
      exact congrArg Except.ok (if_neg hlast)
  | some p =>
    obtain ⟨l, hl, -⟩ := exists_indent_of_insertionPoint? hp
    have hcut := append_of_insertionPoint? hp
    have hafter : p.after ≠ [] := List.ne_nil_of_mem hl
    refine ⟨p.before, p.after, p.indent, _, hcut, Drawing.blocksOf_eq p.indent ds, ?_,
      fun hls => hrun (lineFeed_notMem_of_insertionPoint? hp hls), fun hlast => ?_⟩
    · dsimp only
      rw [Drawing.blocksOf_eq]
      rfl
    · rw [← hcut, List.getLast?_append_of_ne_nil _ hafter] at hlast
      rw [List.getLast?_append_of_ne_nil _ hafter, hlast]

/-! ## Layouts -/

/-- The parts of a patched script. -/
structure PatchLayout where
  /-- What each segment of the script has become. -/
  chunks : List (List Line)
  /-- The lines before the new blocks. -/
  front : List Line
  /-- The lines behind the new blocks. -/
  back : List Line
  /-- The indent of the new blocks. -/
  indent : List Char
  /-- The new blocks. -/
  run : List Line
  /-- The handlers that get a stub. -/
  stubs : List (List Char)

namespace PatchLayout

/-- The lines of a patched script: new blocks between the rewritten segments, and stubs at the end,
but before an empty last line. -/
def lines (p : PatchLayout) : List Line :=
  appendLines (p.front ++ p.run ++ p.back) (p.stubs.map handlerStub)

/-- What the parts of a patched script are: all that the segments have become, cut where the blocks
of those elements stand that have none yet, and the handlers that no line declares. -/
structure IsFor (p : PatchLayout) (s : Scene) (parts : List Segment) : Prop where
  rewrites : s.Rewrites [] parts p.chunks
  cut : p.front ++ p.back = p.chunks.flatten
  run : blocksOf p.indent (s.orderedElements.filter fun e => e.id ∉ ownersOf parts) = .ok p.run
  stubs : p.stubs = undeclared (p.front ++ p.run ++ p.back) s.handlers

end PatchLayout

theorem appendLines_of_isEmpty (ls added : List Line) :
    (if added.isEmpty then ls else appendLines ls added) = appendLines ls added := by
  cases added with
  | nil =>
    by_cases h : ls.getLast? = some []
    · simp [appendLines, h, List.dropLast_append_getLast? [] h]
    · simp [appendLines, h]
  | cons l added => rfl

theorem mem_appendLines {l : Line} {ls added : List Line} :
    l ∈ appendLines ls added ↔ l ∈ ls ∨ l ∈ added := by
  rw [appendLines]
  split
  · next hlast =>
    conv_rhs => rw [← List.dropLast_append_getLast? [] hlast]
    simp only [List.mem_append]
    tauto
  · exact List.mem_append

theorem getLast?_appendLines {ls added : List Line} (h : ls.getLast? = some []) :
    (appendLines ls added).getLast? = some [] := by
  rw [appendLines, if_pos h]
  simp

theorem split_append_singleton (c : Char) (s : List Char) :
    split c (s ++ [c]) = split c s ++ [[]] := by
  induction s with
  | nil => simp [split]
  | cons d s ih =>
    by_cases hd : d = c
    · rw [List.cons_append, split, if_pos hd, ih, split, if_pos hd, List.cons_append]
    · obtain ⟨part, parts, hsplit⟩ := List.exists_cons_of_ne_nil (split_ne_nil c s)
      rw [List.cons_append, split, if_neg hd, ih, split, if_neg hd, hsplit]
      rfl

/-- A text that ends in a line feed has an empty last line. -/
theorem LineBreak.exists_lines_append {s : List Char} (h : s.getLast? = some '\n')
    (b : LineBreak) : ∃ front, b.lines s = front ++ [[]] := by
  obtain ⟨t, rfl⟩ := List.getLast?_eq_some_iff.1 h
  have hsplit : Text.lines (t ++ ['\n']) = Text.lines t ++ [[]] := split_append_singleton '\n' t
  cases b with
  | lf => exact ⟨_, hsplit⟩
  | crlf =>
    refine ⟨(Text.lines t).map dropReturn, ?_⟩
    rw [LineBreak.lines, hsplit, List.map_append]
    rfl

/-- Lines with an empty last one are joined to a text that ends in a line feed, if there are
others. -/
theorem LineBreak.getLast?_join {ls : List Line} (h : ls.getLast? = some []) (b : LineBreak) :
    join b.text ls = [] ∨ (join b.text ls).getLast? = some '\n' := by
  obtain ⟨front, rfl⟩ := List.getLast?_eq_some_iff.1 h
  by_cases hfront : front = []
  · subst hfront
    exact .inl rfl
  · rw [join_append_singleton_nil hfront]
    refine .inr ?_
    cases b with
    | lf => simp [LineBreak.text]
    | crlf => simp [LineBreak.text]

namespace Scene

/-- All segments of a script are replaced by what they become, and the elements that are not placed
then are those that own no block. -/
theorem Readable.exists_replaced {s : Scene} (h : s.Readable) (parts : List Segment) :
    ∃ chunks placed, s.Rewrites [] parts chunks ∧
      s.replaceBlocks [] parts = .ok (chunks.flatten, placed) ∧
      (s.orderedElements.filter fun e => !placed.contains e.id) =
        s.orderedElements.filter fun e => e.id ∉ ownersOf parts := by
  have hstart : ∀ id, id ∈ ([] : List String) ↔ id ∈ ownersOf [] ∧ id ∈ s.elements.keys := by
    simp [ownersOf]
  obtain ⟨chunks, placed, hrewrites, hreplace, hplaced⟩ := h.exists_rewrites hstart parts
  refine ⟨chunks, placed, hrewrites, hreplace, List.filter_congr fun e he => ?_⟩
  have hkey : e.id ∈ s.elements.keys :=
    Table.contains_iff.1 (contains_of_mem_orderedElements h.keys he)
  have := hplaced e.id
  simp only [List.nil_append, hkey, and_true] at this
  simp [this]

/-- A script with a block is patched segment by segment: its blocks are replaced, blocks of the
elements that own none are added, and stubs of the handlers that no line declares. -/
theorem Readable.exists_patchSegments {s : Scene} (h : s.Readable) (parts : List Segment) :
    ∃ chunks, s.Rewrites [] parts chunks ∧ ∀ ls,
      addBlocks chunks.flatten (s.orderedElements.filter fun e => e.id ∉ ownersOf parts) =
        .ok ls →
      s.patchSegments parts =
        .ok (appendLines ls ((undeclared ls s.handlers).map handlerStub)) := by
  obtain ⟨chunks, placed, hrewrites, hreplace, hmissing⟩ := h.exists_replaced parts
  refine ⟨chunks, hrewrites, fun ls hadd => ?_⟩
  rw [patchSegments, hreplace]
  change (addBlocks chunks.flatten
    (s.orderedElements.filter fun e => !placed.contains e.id) >>= _) = _
  rw [hmissing, hadd]
  exact congrArg Except.ok (appendLines_of_isEmpty _ _)

theorem patch_eq_map_of_block {s : Scene} {text : List Char} {parts : List Segment}
    (hparts : segments ((LineBreak.ofText text).lines text) = .ok parts)
    (hblock : parts.any Segment.isBlock = true) :
    s.patch text = (s.patchSegments parts).map (join (LineBreak.ofText text).text) := by
  rw [patch, hparts]
  change (if parts.any Segment.isBlock = true then _ else _) = _
  rw [if_pos hblock]
  cases s.patchSegments parts with
  | error err => rfl
  | ok ls => rfl

theorem patch_of_block {s : Scene} {text : List Char} {parts : List Segment} {ls : List Line}
    (hparts : segments ((LineBreak.ofText text).lines text) = .ok parts)
    (hblock : parts.any Segment.isBlock = true) (hpatch : s.patchSegments parts = .ok ls) :
    s.patch text = .ok (join (LineBreak.ofText text).text ls) := by
  rw [patch_eq_map_of_block hparts hblock, hpatch]
  rfl

theorem patch_of_not_block {s : Scene} {text : List Char} {parts : List Segment}
    (hparts : segments ((LineBreak.ofText text).lines text) = .ok parts)
    (hblock : parts.any Segment.isBlock = false) :
    s.patch text = s.script.map (replaceChar '\n' (LineBreak.ofText text).text) := by
  rw [patch, hparts]
  change (if parts.any Segment.isBlock = true then _ else _) = _
  rw [if_neg (by simp [hblock])]
  cases s.script with
  | error err => rfl
  | ok script => rfl

/-- A script with a block is patched segment by segment: lines outside blocks stay, in order and
each once, the first block of every element of the scene is written anew at its place, the other
blocks go, the blocks of the remaining elements are put in together, and stubs are put in at the
end. The lines are joined by the line break of the script, and a final one is kept unless nothing is
left. -/
theorem Readable.exists_layout {s : Scene} (h : s.Readable) {text : List Char}
    {parts : List Segment}
    (hparts : segments ((LineBreak.ofText text).lines text) = .ok parts)
    (hblock : parts.any Segment.isBlock = true) :
    ∃ p : PatchLayout, p.IsFor s parts ∧
      s.patch text = .ok (join (LineBreak.ofText text).text p.lines) ∧
      (∀ l ∈ p.lines, '\n' ∉ l) ∧
      (text.getLast? = some '\n' → join (LineBreak.ofText text).text p.lines = [] ∨
        (join (LineBreak.ofText text).text p.lines).getLast? = some '\n') := by
  obtain ⟨chunks, hrewrites, hsegments⟩ := h.exists_patchSegments parts
  have hreadable : ∀ e ∈ s.orderedElements.filter fun e => e.id ∉ ownersOf parts, e.Readable :=
    fun e he => h.readable_of_mem (List.mem_of_mem_filter he)
  obtain ⟨front, back, indent, run, hcut, hrun, hadd, hfeed, hlast⟩ :=
    exists_addBlocks hreadable chunks.flatten
  let p : PatchLayout :=
    ⟨chunks, front, back, indent, run, undeclared (front ++ run ++ back) s.handlers⟩
  have hpatch : s.patchSegments parts = .ok p.lines := hsegments _ hadd
  refine ⟨p, ⟨hrewrites, hcut, hrun, rfl⟩, patch_of_block hparts hblock hpatch, ?_, fun htext => ?_⟩
  · have hchunks : ∀ l ∈ chunks.flatten, '\n' ∉ l :=
      h.lineFeed_notMem_of_rewrites hrewrites
        (lines_segments hparts ▸ LineBreak.lineFeed_notMem_of_mem_lines)
    intro l hl
    rcases mem_appendLines.1 hl with hl | hl
    · rw [List.append_assoc, List.mem_append, List.mem_append] at hl
      rcases hl with hl | hl | hl
      · exact hchunks l (hcut ▸ List.mem_append_left _ hl)
      · exact hfeed hchunks l hl
      · exact hchunks l (hcut ▸ List.mem_append_right _ hl)
    · obtain ⟨name, hname, rfl⟩ := List.mem_map.1 hl
      have hcallee := h.isCallee_of_mem_handlers name (List.mem_of_mem_filter hname)
      exact (isStatement_handlerStub hcallee).flat.lineFeed
  · obtain ⟨lines, hlines⟩ := (LineBreak.ofText text).exists_lines_append htext
    obtain ⟨before, rfl⟩ := exists_append_of_segments hparts hlines
    exact LineBreak.getLast?_join (getLast?_appendLines (hlast hrewrites.getLast?_flatten)) _

end Scene

/-! ## A script with nothing left -/

/-- A script of one block. -/
def loneBlock : List Char := "--TDGUI id=a\nUiPush()\nUiPop()\n".toList

/-- Its block, and the empty last line. -/
def loneBlockParts : List Segment :=
  [.block "a" "--TDGUI id=a".toList ["UiPush()".toList, "UiPop()".toList], .line []]

theorem segments_loneBlock :
    segments ((LineBreak.ofText loneBlock).lines loneBlock) = .ok loneBlockParts := by
  have hlines : (LineBreak.ofText loneBlock).lines loneBlock =
      ["--TDGUI id=a".toList, "UiPush()".toList, "UiPop()".toList, []] := by
    decide
  have hread : Marker.read "--TDGUI id=a".toList = .ok (some ⟨some "a", none, none, none, none⟩) :=
    rfl
  have howned : ownedBlock? (some ⟨some "a", none, none, none, none⟩)
      ["UiPush()".toList, "UiPop()".toList, []] =
        some ("a", ["UiPush()".toList, "UiPop()".toList], [[]]) := by
    decide +kernel
  rw [hlines, segments_block hread howned, segments]
  rfl

namespace Scene

/-- A label is put into the script of one block, and the block goes. -/
theorem exists_layout_loneBlock :
    ∃ p : PatchLayout, p.IsFor (empty.add (Element.ofType .text "t" 0 0)) loneBlockParts ∧
      (empty.add (Element.ofType .text "t" 0 0)).patch loneBlock =
        .ok (join (LineBreak.ofText loneBlock).text p.lines) ∧
      (∀ l ∈ p.lines, '\n' ∉ l) ∧
      (loneBlock.getLast? = some '\n' →
        join (LineBreak.ofText loneBlock).text p.lines = [] ∨
          (join (LineBreak.ofText loneBlock).text p.lines).getLast? = some '\n') :=
  Readable.exists_layout (readable_empty.add (Element.readable_ofType rfl (by decide) (by decide)
    (by decide +kernel) (by decide +kernel)) (by decide)) segments_loneBlock rfl

/-- Without elements nothing is left of the script of one block, not even its final line break. -/
theorem patch_loneBlock : empty.Readable ∧
    segments ((LineBreak.ofText loneBlock).lines loneBlock) = .ok loneBlockParts ∧
    loneBlockParts.any Segment.isBlock = true ∧ loneBlock.getLast? = some '\n' ∧
    empty.patch loneBlock = .ok [] := by
  refine ⟨readable_empty, segments_loneBlock, rfl, by decide, ?_⟩
  rw [patch, segments_loneBlock]
  rfl

end Scene

end SceneScript
