import SceneScript.Proofs.Script.Segment
import SceneScript.Script.Patch

/-!
# Patching a written script

A script that was written for some drawings is patched block by block: what stands in it is written
anew or dropped, what is missing goes behind the last block, and stubs go to the end. So patching
gives the script that would be written from the start, but for stubs that nothing calls any more.

Main statements:

* `insertionPoint?_written`: new blocks go behind the last block.
* `Scene.patch_written`: the patched script, given its blocks.
-/

namespace SceneScript

open Lua Text

/-! ## Blocks of several elements -/

section Blocks

variable {indent : List Char} {e : Element} {es : List Element} {blocks : List Line}

theorem blocksOf_eq_ok_iff : blocksOf indent es = .ok blocks ↔
    ∃ bs, es.mapM (fun e => e.block indent) = .ok bs ∧ bs.flatten = blocks := by
  rw [blocksOf, bind_eq_ok]
  simp only [pure, Except.pure, Except.ok.injEq]

theorem blocksOf_cons_eq_ok (h : blocksOf indent (e :: es) = .ok blocks) :
    ∃ block rest, e.block indent = .ok block ∧ blocksOf indent es = .ok rest ∧
      blocks = block ++ rest := by
  obtain ⟨bs, hbs, rfl⟩ := blocksOf_eq_ok_iff.1 h
  rw [mapM_eq_ok_iff] at hbs
  cases hbs with
  | cons hblock hrest =>
    exact ⟨_, _, hblock, blocksOf_eq_ok_iff.2 ⟨_, mapM_eq_ok_iff.2 hrest, rfl⟩, rfl⟩

/-- The lines of a block start with its indent. -/
theorem exists_append_of_mem_block {block : List Line} (h : e.block indent = .ok block) :
    ∀ l ∈ block, ∃ t, l = indent ++ t := by
  unfold Element.block at h
  obtain ⟨marker, -, h⟩ := bind_eq_ok.1 h
  obtain ⟨move, -, h⟩ := bind_eq_ok.1 h
  obtain ⟨σs, -, h⟩ := bind_eq_ok.1 h
  obtain rfl := Except.ok.inj h
  intro l hl
  simp only [List.cons_append, List.mem_cons, List.mem_append, List.mem_map, List.not_mem_nil,
    or_false] at hl
  rcases hl with rfl | rfl | rfl | ⟨σ, -, rfl⟩ | rfl
  · exact ⟨_, rfl⟩
  · exact ⟨_, rfl⟩
  · exact ⟨_, List.append_assoc ..⟩
  · exact ⟨_, List.append_assoc ..⟩
  · exact ⟨_, rfl⟩

theorem exists_append_of_mem_blocksOf (h : blocksOf indent es = .ok blocks) :
    ∀ l ∈ blocks, ∃ t, l = indent ++ t := by
  induction es generalizing blocks with
  | nil =>
    obtain ⟨bs, hbs, rfl⟩ := blocksOf_eq_ok_iff.1 h
    obtain rfl := Except.ok.inj hbs
    simp
  | cons e es ih =>
    obtain ⟨block, rest, hblock, hrest, rfl⟩ := blocksOf_cons_eq_ok h
    intro l hl
    rcases List.mem_append.1 hl with hl | hl
    · exact exists_append_of_mem_block hblock l hl
    · exact ih hrest l hl

end Blocks

/-! ## Replacing blocks -/

theorem indentOf_append {indent : List Char} (h : indent.all isBlank = true) {t : List Char}
    (ht : Tight t) : indentOf (indent ++ t) = indent := by
  obtain ⟨c, hc, hb⟩ := ht.head
  obtain ⟨rest, rfl⟩ := List.head?_eq_some_iff.1 hc
  rw [indentOf, List.takeWhile_append_of_pos (List.all_eq_true.1 h),
    List.takeWhile_cons_of_neg (by simp [hb]), List.append_nil]

namespace Scene

variable (s : Scene)

theorem replaceBlocks_lines (placed : List String) (ls : List Line) (rest : List Segment) :
    s.replaceBlocks placed (ls.map .line ++ rest) =
      (s.replaceBlocks placed rest).map fun r => (ls ++ r.1, r.2) := by
  induction ls with
  | nil =>
    rw [List.map_nil, List.nil_append]
    cases s.replaceBlocks placed rest with
    | error err => rfl
    | ok r => rfl
  | cons l ls ih =>
    rw [List.map_cons, List.cons_append, replaceBlocks, ih]
    cases s.replaceBlocks placed rest with
    | error err => rfl
    | ok r => rfl

/-- The blocks of some drawings are written anew, as far as the scene has their ids. -/
theorem replaceBlocks_segments {indent : List Char} (hindent : indent.all isBlank = true)
    {ds : List Drawing} {placed : List String} (hnodup : (ds.map fun d => d.element.id).Nodup)
    (hplaced : ∀ d ∈ ds, d.element.id ∉ placed) {blocks : List Line}
    (hblocks : blocksOf indent ((ds.map fun d => d.element.id).filterMap s.elements.get?) =
      .ok blocks) (rest : List Segment) :
    s.replaceBlocks placed (ds.map (fun d => d.segment indent) ++ rest) =
      (s.replaceBlocks
        (((ds.map fun d => d.element.id).filter s.elements.contains).reverse ++ placed)
        rest).map fun r => (blocks ++ r.1, r.2) := by
  induction ds generalizing placed blocks with
  | nil =>
    obtain rfl := Except.ok.inj hblocks
    exact s.replaceBlocks_lines placed [] rest
  | cons d ds ih =>
    rw [List.map_cons, List.nodup_cons] at hnodup
    have hmarker : indentOf (indent ++ Marker.text d.element d.frame.w d.frame.h) = indent :=
      indentOf_append hindent (Marker.tight_text _ _ _)
    have hnot : placed.contains d.element.id = false := by
      simpa using hplaced d List.mem_cons_self
    rw [List.map_cons, List.cons_append, Drawing.segment, replaceBlocks, hnot, hmarker]
    cases hget : s.elements.get? d.element.id with
    | none =>
      have hcontains : s.elements.contains d.element.id = false := by
        rw [Bool.eq_false_iff, Ne, Table.contains_iff]
        exact Table.get?_eq_none_iff.1 hget
      rw [List.map_cons, List.filterMap_cons_none hget] at hblocks
      rw [List.map_cons, List.filter_cons_of_neg (by simp [hcontains])]
      exact ih hnodup.2 (fun d' hd' => hplaced d' (List.mem_cons_of_mem _ hd')) hblocks
    | some e =>
      have hcontains : s.elements.contains d.element.id = true :=
        Table.contains_iff.2 (Table.mem_keys_of_get? hget)
      rw [List.map_cons, List.filterMap_cons_some hget] at hblocks
      obtain ⟨block, others, hblock, hothers, rfl⟩ := blocksOf_cons_eq_ok hblocks
      have hfresh : ∀ d' ∈ ds, d'.element.id ∉ d.element.id :: placed := by
        intro d' hd' hmem
        rcases List.mem_cons.1 hmem with heq | hmem
        · exact hnodup.1 (heq ▸ List.mem_map_of_mem (f := fun d : Drawing => d.element.id) hd')
        · exact hplaced d' (List.mem_cons_of_mem _ hd') hmem
      rw [List.map_cons, List.filter_cons_of_pos hcontains]
      dsimp only
      rw [hblock, ih hnodup.2 hfresh hothers, List.reverse_cons, List.append_assoc,
        List.singleton_append]
      cases s.replaceBlocks (((ds.map fun d => d.element.id).filter s.elements.contains).reverse ++
        d.element.id :: placed) rest with
      | error err => rfl
      | ok r => exact congrArg (fun ls => Except.ok (ls, r.2)) (List.append_assoc ..).symm

end Scene

/-! ## The place of new blocks -/

theorem splitAtLast?_eq_none_iff {α : Type} {p : α → Bool} {l : List α} :
    splitAtLast? p l = none ↔ ∀ a ∈ l, p a = false := by
  induction l with
  | nil => simp [splitAtLast?]
  | cons a l ih =>
    rw [splitAtLast?, List.forall_mem_cons, ← ih]
    split
    · next h => simp [h]
    · next h => simp [h]

theorem splitAtLast?_append_cons {α : Type} {p : α → Bool} (before : List α) {a : α}
    (ha : p a = true) {after : List α} (hafter : ∀ b ∈ after, p b = false) :
    splitAtLast? p (before ++ a :: after) = some (before, a, after) := by
  induction before with
  | nil => rw [List.nil_append, splitAtLast?, splitAtLast?_eq_none_iff.2 hafter, if_pos ha]
  | cons b before ih => rw [List.cons_append, splitAtLast?, ih]

/-- Some lines are cut before the last one that closes a block in the drawing function. -/
theorem insertionPoint?_of_split {front : List Line} {decl closing : Line}
    (body back behind : List Line)
    (hfront : ∀ l ∈ front, declaresDraw l = false) (hdecl : declaresDraw decl = true)
    (hwithin : ∀ l ∈ body ++ closing :: back, isWithin (indentOf decl) l = true)
    (hclosing : closesOnLine closing = true) (hback : ∀ l ∈ back, closesOnLine l = false)
    (hbehind : ∀ l ∈ behind.head?, isWithin (indentOf decl) l = false) :
    insertionPoint? (front ++ decl :: (body ++ closing :: back ++ behind)) =
      some ⟨front ++ decl :: body, closing :: back ++ behind,
        indentOf closing ++ indentStep⟩ := by
  have hdrop : (front ++ decl :: (body ++ closing :: back ++ behind)).dropWhile
      (fun l => !declaresDraw l) = decl :: (body ++ closing :: back ++ behind) := by
    rw [List.dropWhile_append_of_pos (by simpa using hfront),
      List.dropWhile_cons_of_neg (by simp [hdecl])]
  have htake : (front ++ decl :: (body ++ closing :: back ++ behind)).takeWhile
      (fun l => !declaresDraw l) = front := by
    rw [List.takeWhile_append_of_pos (by simpa using hfront),
      List.takeWhile_cons_of_neg (by simp [hdecl]), List.append_nil]
  have hend : behind.takeWhile (isWithin (indentOf decl)) = [] ∧
      behind.dropWhile (isWithin (indentOf decl)) = behind := by
    cases behind with
    | nil => exact ⟨rfl, rfl⟩
    | cons l behind =>
      have hl := hbehind l rfl
      exact ⟨List.takeWhile_cons_of_neg (by simp [hl]), List.dropWhile_cons_of_neg (by simp [hl])⟩
  rw [insertionPoint?, hdrop, htake]
  dsimp only
  rw [List.takeWhile_append_of_pos hwithin, List.dropWhile_append_of_pos hwithin, hend.1, hend.2,
    List.append_nil, splitAtLast?_append_cons body hclosing hback]

theorem isWithin_of_head {c : Char} (hc : isBlank c = true) (l : Line) :
    isWithin [] (c :: l) = true := by
  simp [isWithin, indentOf, hc]

/-- In a written script new blocks go behind the last block. -/
theorem insertionPoint?_written {blocks behind : List Line}
    (hblocks : ∀ l ∈ blocks, ∃ t, l = indentStep ++ indentStep ++ t) :
    insertionPoint? (headerLines ++ (blocks ++ (footerLines ++ behind))) =
      some ⟨headerLines ++ blocks, footerLines ++ behind, indentStep ++ indentStep⟩ := by
  obtain ⟨decl, opening, frame, closing, last, hheader, hfooter, hfront, hdecl, hwithin, hlast⟩ :
      ∃ decl opening frame closing last,
        headerLines = headerLines.take 3 ++ [decl, opening, frame] ∧
        footerLines = closing :: last :: footerLines.drop 2 ∧
        (∀ l ∈ headerLines.take 3, declaresDraw l = false) ∧
        (declaresDraw decl = true ∧ indentOf decl = []) ∧
        (∀ l ∈ [opening, frame, closing], isWithin [] l = true) ∧
        isWithin [] last = false ∧ closesOnLine closing = true ∧
          indentOf closing ++ indentStep = indentStep ++ indentStep := by
    refine ⟨_, _, _, _, _, rfl, rfl, ?_, ?_, ?_, ?_⟩
    · decide +kernel
    · decide +kernel
    · decide +kernel
    · decide +kernel
  obtain ⟨hlast, hclosing, hindent⟩ := hlast
  have hlines : headerLines ++ (blocks ++ (footerLines ++ behind)) =
      headerLines.take 3 ++ decl :: (([opening, frame] ++ blocks) ++ [closing] ++
        last :: (footerLines.drop 2 ++ behind)) := by
    conv_lhs => rw [hheader, hfooter]
    simp
  have hbody : ∀ l ∈ ([opening, frame] ++ blocks) ++ [closing], isWithin [] l = true := by
    intro l hl
    rcases List.mem_append.1 hl with hl | hl
    · rcases List.mem_append.1 hl with hl | hl
      · exact hwithin l (List.mem_append_left [closing] hl)
      · obtain ⟨t, rfl⟩ := hblocks l hl
        exact isWithin_of_head (c := ' ') (by decide) _
    · exact hwithin l (List.mem_append_right [opening, frame] hl)
  have hpoint := insertionPoint?_of_split ([opening, frame] ++ blocks) []
    (last :: (footerLines.drop 2 ++ behind)) hfront hdecl.1 (hdecl.2 ▸ hbody) hclosing
    (by simp) fun l hl => by
      obtain rfl := Option.some.inj hl
      rw [hdecl.2, hlast]
  rw [hindent] at hpoint
  rw [hlines, hpoint]
  conv_rhs => rw [hheader, hfooter]
  simp

/-! ## Stubs -/

theorem appendLines_nil (ls added : List Line) :
    appendLines (ls ++ [[]]) added = ls ++ added ++ [[]] := by
  simp [appendLines]

theorem declaresFunction_handlerStub {name : List Char} (h : isCallee name = true) :
    declaresFunction name (handlerStub name) = true := by
  obtain ⟨hne, hname⟩ := isNameChar_of_isCallee h
  obtain ⟨c, rest, rfl⟩ := List.exists_cons_of_ne_nil hne
  have hc := isBlank_of_isNameChar (hname c List.mem_cons_self)
  have htrim : trimLeft (handlerStub (c :: rest)) =
      "function".toList ++ ' ' :: (c :: rest ++ "() end".toList) := by
    rw [handlerStub_eq]
    exact trimLeft_cons (by decide) _
  have hblanks : afterBlanks? (' ' :: (c :: rest ++ "() end".toList)) =
      some (c :: rest ++ "() end".toList) := afterBlanks?_space hc _
  have hparen : afterChar? '(' (trimLeft "() end".toList) = some ") end".toList := by
    decide
  have hstarts : startsDeclaration (c :: rest) (trimLeft (handlerStub (c :: rest))) = true := by
    rw [htrim, startsDeclaration, afterWord?_append]
    simp only [Option.bind_eq_bind, Option.bind_some, hblanks]
    rw [afterWord?_append, Option.bind_some, hparen]
    rfl
  simp only [declaresFunction, hstarts, Bool.true_or]

/-- The handlers that some lines do not declare. -/
def undeclared (ls : List Line) (handlers : List (List Char)) : List (List Char) :=
  handlers.filter fun name => !ls.any (declaresFunction name)

theorem any_declaresFunction_of_mem {name : List Char} (h : isCallee name = true)
    {names : List (List Char)} (hname : name ∈ names) (blocks : List Line) :
    (writtenLines blocks names ++ [[]]).any (declaresFunction name) = true := by
  refine List.any_eq_true.2 ⟨handlerStub name, ?_, declaresFunction_handlerStub h⟩
  exact List.mem_append_left _ (List.mem_append_right _ (List.mem_map_of_mem hname))

section Undeclared

variable {blocks : List Line} {names handlers : List (List Char)}
  (hhandlers : ∀ name ∈ handlers, isCallee name = true)

include hhandlers

/-- Handlers with a stub are declared, so no stub is put in twice. -/
theorem nodup_append_undeclared (hnames : names.Nodup) (hnodup : handlers.Nodup) :
    (names ++ undeclared (writtenLines blocks names ++ [[]]) handlers).Nodup := by
  refine List.nodup_append.2 ⟨hnames, hnodup.filter _, ?_⟩
  rintro name hname _ hmem rfl
  obtain ⟨hmem, hnot⟩ := List.mem_filter.1 hmem
  simp [any_declaresFunction_of_mem (hhandlers name hmem) hname] at hnot

/-- With the stubs of the undeclared handlers put in, every handler is declared. -/
theorem any_declaresFunction_append_undeclared {name : List Char} (hname : name ∈ handlers) :
    (writtenLines blocks (names ++ undeclared (writtenLines blocks names ++ [[]]) handlers)
      ++ [[]]).any (declaresFunction name) = true := by
  by_cases h : (writtenLines blocks names ++ [[]]).any (declaresFunction name) = true
  · obtain ⟨l, hl, hdeclares⟩ := List.any_eq_true.1 h
    refine List.any_eq_true.2 ⟨l, ?_, hdeclares⟩
    simp only [writtenLines, List.map_append, List.mem_append] at hl ⊢
    tauto
  · refine any_declaresFunction_of_mem (hhandlers name hname) ?_ blocks
    exact List.mem_append_right _ (List.mem_filter.2 ⟨hname, by simpa using h⟩)

end Undeclared

/-! ## Patching -/

/-- The text of the script of some drawings, with the stubs of some handlers. -/
def Drawing.code (ds : List Drawing) (names : List (List Char)) : List Char :=
  join ['\n'] (scriptLines ds names ++ [[]])

section Code

variable (ds : List Drawing) {names : List (List Char)}
  (hnames : ∀ name ∈ names, isCallee name = true)

include hnames

theorem Drawing.lines_code : Text.lines (code ds names) = scriptLines ds names ++ [[]] := by
  refine lines_join (by simp) fun l hl => ?_
  rcases List.mem_append.1 hl with hl | hl
  · exact (flat_of_mem_scriptLines ds hnames l hl).lineFeed
  · simp [List.mem_singleton.1 hl]

/-- A written script is broken by line feeds. -/
theorem Drawing.ofText_code : LineBreak.ofText (code ds names) = .lf := by
  refine LineBreak.ofText_eq_lf fun hr => ?_
  rcases mem_join hr with h | ⟨l, hl, h⟩
  · simp at h
  · rcases List.mem_append.1 hl with hl | hl
    · exact (flat_of_mem_scriptLines ds hnames l hl).carriageReturn h
    · simp [List.mem_singleton.1 hl] at h

end Code

/-- In a written script the blocks of some elements go behind the others. -/
theorem addBlocks_written {es : List Element} {present absent : List Line}
    (hpresent : ∀ l ∈ present, ∃ t, l = indentStep ++ indentStep ++ t)
    (habsent : blocksOf (indentStep ++ indentStep) es = .ok absent) (names : List (List Char)) :
    addBlocks (writtenLines present names ++ [[]]) es =
      .ok (writtenLines (present ++ absent) names ++ [[]]) := by
  have hassoc : ∀ blocks, writtenLines blocks names ++ [[]] =
      headerLines ++ (blocks ++ (footerLines ++ (names.map handlerStub ++ [[]]))) := by
    intro blocks
    simp only [writtenLines, List.append_assoc]
  cases es with
  | nil =>
    obtain rfl : [] = absent := Except.ok.inj habsent
    rw [List.append_nil]
    rfl
  | cons e es =>
    rw [hassoc, addBlocks, if_neg (by simp), insertionPoint?_written hpresent]
    dsimp only
    rw [habsent, hassoc]
    simp [Except.map]

namespace Scene

theorem appendStubs_written {blocks : List Line} (names handlers : List (List Char)) :
    (if (missingStubs (writtenLines blocks names ++ [[]]) handlers).isEmpty
      then writtenLines blocks names ++ [[]]
      else appendLines (writtenLines blocks names ++ [[]])
        (missingStubs (writtenLines blocks names ++ [[]]) handlers)) =
      writtenLines blocks (names ++ undeclared (writtenLines blocks names ++ [[]]) handlers) ++
        [[]] := by
  have hstubs : missingStubs (writtenLines blocks names ++ [[]]) handlers =
      (undeclared (writtenLines blocks names ++ [[]]) handlers).map handlerStub := rfl
  rw [hstubs, appendLines_nil]
  generalize undeclared (writtenLines blocks names ++ [[]]) handlers = added
  cases added with
  | nil => simp
  | cons name added => simp [writtenLines]

variable {s : Scene} (hkeys : ∀ entry ∈ s.elements.entries, entry.2.id = entry.1)

include hkeys

theorem contains_of_mem_orderedElements {e : Element} (he : e ∈ s.orderedElements) :
    s.elements.contains e.id = true := by
  obtain ⟨key, -, hget⟩ := mem_orderedElements.1 he
  have hid : e.id = key := hkeys _ (Table.mem_of_get? hget)
  rw [hid, Table.contains_iff]
  exact Table.mem_keys_of_get? hget

/-- A written script is patched to the script of the blocks that it has and of those that it lacks,
with the stubs that it has and of the handlers that it does not declare. -/
theorem patch_written {ds : List Drawing} (hne : ds ≠ [])
    (hnodup : (ds.map fun d => d.element.id).Nodup) {names : List (List Char)}
    (hnames : ∀ name ∈ names, isCallee name = true) {present absent : List Line}
    (hpresent : blocksOf (indentStep ++ indentStep)
      ((ds.map fun d => d.element.id).filterMap s.elements.get?) = .ok present)
    (habsent : blocksOf (indentStep ++ indentStep)
      (s.orderedElements.filter fun e => !(ds.map fun d => d.element.id).contains e.id) =
      .ok absent) :
    s.patch (Drawing.code ds names) = .ok (join ['\n']
      (writtenLines (present ++ absent) (names ++
        undeclared (writtenLines (present ++ absent) names ++ [[]]) s.handlers) ++ [[]])) := by
  let ids := ds.map fun d => d.element.id
  let placed := (ids.filter s.elements.contains).reverse
  let behind := footerLines ++ (names.map handlerStub ++ [[]])
  let parts := headerLines.map Segment.line ++
    (ds.map (fun d => d.segment (indentStep ++ indentStep)) ++ behind.map .line)
  have hparts : segments (LineBreak.lines .lf (Drawing.code ds names)) = .ok parts := by
    rw [LineBreak.lines, Drawing.lines_code ds hnames]
    exact Drawing.segments_scriptLines ds hnames
  have hblock : parts.any Segment.isBlock = true := by
    obtain ⟨d, rest, rfl⟩ := List.exists_cons_of_ne_nil hne
    refine List.any_eq_true.2 ⟨d.segment (indentStep ++ indentStep), ?_, rfl⟩
    exact List.mem_append_right _ List.mem_cons_self
  have hreplace : s.replaceBlocks [] parts = .ok (writtenLines present names ++ [[]], placed) := by
    have hlast := s.replaceBlocks_lines (placed ++ []) behind []
    rw [List.append_nil (behind.map Segment.line)] at hlast
    rw [s.replaceBlocks_lines, s.replaceBlocks_segments (by decide) hnodup (by simp) hpresent,
      hlast]
    simp [replaceBlocks, Except.map, writtenLines, behind, placed, ids]
  have hplaced : (s.orderedElements.filter fun e => !placed.contains e.id) =
      s.orderedElements.filter fun e => !ids.contains e.id := by
    refine List.filter_congr fun e he => ?_
    have hcontains := contains_of_mem_orderedElements hkeys he
    simp [placed, hcontains]
  have hadd := addBlocks_written (exists_append_of_mem_blocksOf hpresent) habsent names
  have hpatch : s.patchSegments parts = .ok (writtenLines (present ++ absent) (names ++
      undeclared (writtenLines (present ++ absent) names ++ [[]]) s.handlers) ++ [[]]) := by
    rw [patchSegments, hreplace, ← appendStubs_written]
    change (addBlocks (writtenLines present names ++ [[]])
      (s.orderedElements.filter fun e => !placed.contains e.id) >>= _) = _
    rw [hplaced, hadd]
    rfl
  rw [patch, Drawing.ofText_code ds hnames, hparts]
  change (if parts.any Segment.isBlock = true then _ else _) = _
  rw [if_pos hblock, hpatch]
  rfl

end Scene

/-! ## Whole scripts -/

theorem replaceChar_self (c : Char) (s : List Char) : replaceChar c [c] s = s := by
  induction s with
  | nil => rfl
  | cons d s ih =>
    have hd : (if d = c then [c] else [d]) = [d] := by
      split_ifs with h
      · rw [h]
      · rfl
    rw [replaceChar, List.flatMap_cons, hd, ← replaceChar, ih]
    rfl

/-- Replacing the separator of joined lines. -/
theorem replaceChar_join {c : Char} {separator : List Char} {parts : List (List Char)}
    (h : ∀ part ∈ parts, c ∉ part) :
    replaceChar c separator (join [c] parts) = join separator parts := by
  induction parts with
  | nil => rfl
  | cons part parts ih =>
    have hpart := replaceChar_of_notMem separator (h part List.mem_cons_self)
    by_cases hp : parts = []
    · subst hp
      exact hpart
    · have hrest := ih fun q hq => h q (List.mem_cons_of_mem _ hq)
      have hsplit : replaceChar c separator (part ++ [c] ++ join [c] parts) =
          replaceChar c separator part ++ separator ++
            replaceChar c separator (join [c] parts) := by
        simp [replaceChar]
      rw [join_cons hp, join_cons hp, hsplit, hpart, hrest]

namespace Scene

variable (s : Scene)

/-- The script of a scene is that of its drawings, with the stubs of its handlers. -/
theorem script_eq {ds : List Drawing} (hds : ds.map Drawing.element = s.orderedElements) :
    s.script = .ok (Drawing.code ds s.handlers) := by
  have hne : Drawing.scriptLines ds s.handlers ≠ [] := by
    simp [Drawing.scriptLines, writtenLines, headerLines]
  rw [script, Readable.scriptLines_eq hds, Drawing.code, join_append_singleton_nil hne]
  rfl

/-- A script without blocks is replaced by the whole script. -/
theorem patch_unwritten {text : List Char} (hbreak : LineBreak.ofText text = .lf) {ls : List Line}
    (hsegments : segments (Text.lines text) = .ok (ls.map .line)) : s.patch text = s.script := by
  have hblock : (ls.map Segment.line).any Segment.isBlock = false := by
    simp [List.any_map, Segment.isBlock]
  rw [patch, hbreak]
  change (segments (Text.lines text) >>= _) = _
  rw [hsegments]
  change (if (ls.map Segment.line).any Segment.isBlock = true then _ else _) = _
  rw [if_neg (by simp [hblock])]
  cases s.script with
  | error err => rfl
  | ok script => exact congrArg Except.ok (replaceChar_self '\n' script)

/-- So is a script that was written for no drawings. -/
theorem patch_nil {names : List (List Char)} (hnames : ∀ name ∈ names, isCallee name = true) :
    s.patch (Drawing.code [] names) = s.script := by
  have hsegments := Drawing.segments_scriptLines [] hnames
  rw [List.map_nil, List.nil_append, ← List.map_append] at hsegments
  exact s.patch_unwritten (Drawing.ofText_code [] hnames)
    ((congrArg segments (Drawing.lines_code [] hnames)).trans hsegments)

end Scene

end SceneScript
