import SceneScript.Proofs.Lua.Ends
import SceneScript.Proofs.Script.Drawable
import SceneScript.Proofs.Script.Insertion

/-!
# Balanced scripts

A script is balanced when it never closes a block that it has not opened, and closes all that it
opens (`Balanced`). That is what counting open blocks from one comes back to (`balanced_iff`), so
lines that leave every count as it is can be put into a script or taken out of it
(`Neutral`, `Neutral.openAfter_insert`). Blocks of elements are such lines, and stubs.

A patch takes whole lines. What stands behind the closing of a block, on the same line, goes with
the block, and a script need not be balanced without it.

Main statement: a patched script is balanced exactly when the lines outside its blocks were, so a
balanced script stays balanced if its blocks are, to the end of their last lines
(`Scene.Drawable.balanced_patch`). A script that closes a block and opens another on one line does
not (`Scene.not_balanced_patch`).
-/

namespace SceneScript

open Lua Text

/-! ## Counting -/

/-- What a statement adds to the number of open blocks. -/
def weight (σ : List Char) : ℤ := if opensBlock σ then 1 else if closesBlock σ then -1 else 0

/-- How many more blocks some statements open than they close. -/
def net (σs : List (List Char)) : ℤ := (σs.map weight).sum

theorem net_nil : net [] = 0 := rfl

theorem net_cons (σ : List Char) (σs : List (List Char)) : net (σ :: σs) = weight σ + net σs := by
  rw [net, List.map_cons, List.sum_cons]
  rfl

/-- Statements that close no block that is not open, and all that they open. -/
structure Balanced (σs : List (List Char)) : Prop where
  nonneg : ∀ front, front <+: σs → 0 ≤ net front
  zero : net σs = 0

theorem forall_prefix_cons {P : List (List Char) → Prop} {σ : List Char} {σs : List (List Char)} :
    (∀ front, front <+: σ :: σs → P front) ↔ P [] ∧ ∀ front, front <+: σs → P (σ :: front) := by
  constructor
  · intro h
    exact ⟨h [] List.nil_prefix, fun front hfront => h _ (List.cons_prefix_cons.2 ⟨rfl, hfront⟩)⟩
  · rintro ⟨hnil, hcons⟩ front hfront
    rcases List.prefix_cons_iff.1 hfront with rfl | ⟨t, rfl, ht⟩
    · exact hnil
    · exact hcons t ht

theorem exists_prefix_cons {P : List (List Char) → Prop} {σ : List Char} {σs : List (List Char)} :
    (∃ front, front <+: σ :: σs ∧ P front) ↔ P [] ∨ ∃ front, front <+: σs ∧ P (σ :: front) := by
  have hnot := not_congr (@forall_prefix_cons (fun front => ¬ P front) σ σs)
  push Not at hnot
  rw [hnot]
  tauto

/-- A statement adds its weight to the number of open blocks, unless it closes the last one. -/
theorem openAfter_succ_cons (d : ℕ) (σ : List Char) (σs : List (List Char)) :
    (d + weight σ = -1 ∧ openAfter (d + 1) (σ :: σs) = none) ∨
    ∃ k : ℕ, k = d + weight σ ∧ openAfter (d + 1) (σ :: σs) = openAfter (k + 1) σs := by
  rw [openAfter]
  split
  · next hopens => exact .inr ⟨d + 1, by simp [weight, hopens], rfl⟩
  · next hopens =>
    split
    · next hcloses =>
      have hweight : weight σ = -1 := by simp [weight, hopens, hcloses]
      cases d with
      | zero => exact .inl ⟨by rw [hweight]; rfl, if_pos le_rfl⟩
      | succ d => exact .inr ⟨d, by rw [hweight]; push_cast; ring, if_neg (by omega)⟩
    · next hcloses => exact .inr ⟨d, by simp [weight, hopens, hcloses], rfl⟩

/-- Counting open blocks, one of them around all statements, gives a number exactly when none is
closed that is not open. -/
theorem openAfter_succ_eq_some_iff {d d' : ℕ} {σs : List (List Char)} :
    openAfter (d + 1) σs = some (d' + 1) ↔
      (∀ front, front <+: σs → 0 ≤ d + net front) ∧ d + net σs = d' := by
  induction σs generalizing d with
  | nil =>
    simp only [openAfter, Option.some.injEq, Nat.add_right_cancel_iff, List.prefix_nil, forall_eq,
      net_nil]
    omega
  | cons σ σs ih =>
    rw [forall_prefix_cons, net_nil]
    simp only [net_cons, ← add_assoc]
    rcases openAfter_succ_cons d σ σs with ⟨hlast, hnone⟩ | ⟨k, hk, hstep⟩
    · rw [hnone]
      refine iff_of_false (by simp) fun h => ?_
      have := h.1.2 [] List.nil_prefix
      rw [net_nil] at this
      omega
    · rw [hstep, ih, ← hk]
      simp

/-- It fails exactly when one more is closed than opened. -/
theorem openAfter_succ_eq_none_iff {d : ℕ} {σs : List (List Char)} :
    openAfter (d + 1) σs = none ↔ ∃ front, front <+: σs ∧ d + net front = -1 := by
  induction σs generalizing d with
  | nil =>
    refine iff_of_false (by simp [openAfter]) ?_
    rintro ⟨front, hfront, hnet⟩
    rw [List.prefix_nil.1 hfront, net_nil] at hnet
    omega
  | cons σ σs ih =>
    rw [exists_prefix_cons, net_nil]
    simp only [net_cons, ← add_assoc]
    rcases openAfter_succ_cons d σ σs with ⟨hlast, hnone⟩ | ⟨k, hk, hstep⟩
    · rw [hnone]
      exact iff_of_true rfl (.inr ⟨[], List.nil_prefix, by rw [hlast, net_nil]; rfl⟩)
    · rw [hstep, ih, ← hk]
      exact (or_iff_right (by omega)).symm

theorem balanced_iff {σs : List (List Char)} : Balanced σs ↔ openAfter 1 σs = some 1 := by
  have hcount := @openAfter_succ_eq_some_iff 0 0 σs
  simp only [Nat.cast_zero, zero_add] at hcount
  rw [hcount]
  exact ⟨fun h => ⟨h.nonneg, h.zero⟩, fun h => ⟨h.1, h.2⟩⟩

instance (σs : List (List Char)) : Decidable (Balanced σs) := decidable_of_iff _ balanced_iff.symm

/-! ## Neutral lines -/

/-- The statements of some lines, in order. -/
def statementsOfLines (ls : List Line) : List (List Char) := ls.flatMap Lua.statements

/-- Lines that leave the number of open blocks as it is, and close none that is open before. -/
def Neutral (ls : List Line) : Prop :=
  ∀ depth, 1 ≤ depth → openAfter depth (statementsOfLines ls) = some depth

theorem statementsOfLines_append (a b : List Line) :
    statementsOfLines (a ++ b) = statementsOfLines a ++ statementsOfLines b := List.flatMap_append

theorem Balanced.neutral {ls : List Line} (h : Balanced (statementsOfLines ls)) : Neutral ls := by
  intro depth hdepth
  obtain ⟨d, rfl⟩ := Nat.exists_eq_succ_of_ne_zero (Nat.one_le_iff_ne_zero.1 hdepth)
  refine openAfter_succ_eq_some_iff.2 ⟨fun front hfront => ?_, by rw [h.zero, add_zero]⟩
  have := h.nonneg front hfront
  omega

theorem neutral_of_inert {ls : List Line} (h : ∀ σ ∈ statementsOfLines ls, Inert σ) : Neutral ls :=
  fun _ _ => openAfter_of_inert h

theorem Neutral.append {a b : List Line} (ha : Neutral a) (hb : Neutral b) : Neutral (a ++ b) := by
  intro depth hdepth
  rw [statementsOfLines_append, openAfter_append, ha depth hdepth]
  exact hb depth hdepth

/-- Neutral lines can be put in anywhere. -/
theorem Neutral.openAfter_insert {new : List Line} (hnew : Neutral new) (a b : List Line)
    {depth : ℕ} (hdepth : 1 ≤ depth) :
    openAfter depth (statementsOfLines (a ++ new ++ b)) =
      openAfter depth (statementsOfLines (a ++ b)) := by
  rw [statementsOfLines_append, statementsOfLines_append, statementsOfLines_append,
    openAfter_append, openAfter_append, openAfter_append]
  cases ha : openAfter depth (statementsOfLines a) with
  | none => rfl
  | some d =>
    rw [Option.bind_some, hnew d (one_le_of_openAfter hdepth ha)]

theorem neutral_stubs {names : List (List Char)} (h : ∀ name ∈ names, isCallee name = true) :
    Neutral (names.map handlerStub) := by
  refine neutral_of_inert fun σ hσ => ?_
  obtain ⟨l, hl, hσ⟩ := List.mem_flatMap.1 hσ
  obtain ⟨name, hname, rfl⟩ := List.mem_map.1 hl
  rw [statements_handlerStub (h name hname), List.mem_singleton] at hσ
  exact hσ ▸ (quiet_handlerStub (h name hname)).toInert

theorem Element.Drawable.neutral_block {e : Element} (he : e.Drawable) {indent : List Char}
    (hindent : indent.all isBlank = true) {block : List Line}
    (hblock : e.block indent = .ok block) : Neutral block := by
  obtain ⟨f, σs, hf, hok, hσs⟩ := he.exists_statements
  obtain rfl := Except.ok.inj ((block_eq hf hok indent).symm.trans hblock)
  intro depth hdepth
  have hopens : opensBlock "UiPush()".toList = true := by decide
  have hcloses : opensBlock "UiPop()".toList = false ∧ closesBlock "UiPop()".toList = true := by
    decide
  rw [statementsOfLines, statements_blockLines hindent, openAfter, if_pos hopens, openAfter_append,
    openAfter_of_inert (inert_of_mem_blockLines hindent hσs), Option.bind_some, openAfter,
    if_neg (Bool.eq_false_iff.1 hcloses.1), if_pos hcloses.2, if_neg (by omega)]
  rfl

/-- Blocks of drawable elements are neutral, one after the other. -/
theorem neutral_of_blocksOf {es : List Element} (hes : ∀ e ∈ es, e.Drawable) {indent : List Char}
    (hindent : indent.all isBlank = true) {run : List Line} (hrun : blocksOf indent es = .ok run) :
    Neutral run := by
  induction es generalizing run with
  | nil =>
    obtain rfl : [] = run := Except.ok.inj hrun
    exact fun _ _ => rfl
  | cons e es ih =>
    obtain ⟨block, rest, hblock, hrest, rfl⟩ := blocksOf_cons_eq_ok hrun
    rw [List.forall_mem_cons] at hes
    exact (hes.1.neutral_block hindent hblock).append (ih hes.2 hrest)

/-! ## Line breaks -/

/-- A carriage return at the end of a line is in none of its statements. -/
theorem statements_append_return (l : Line) : Lua.statements (l ++ ['\r']) = Lua.statements l :=
  statements_append_blank (by decide) l

/-- The statements of a script do not depend on how its lines are broken. -/
theorem statementsOfLines_lines (b : LineBreak) (text : List Char) :
    statementsOfLines (b.lines text) = statementsOfLines (Text.lines text) := by
  cases b with
  | lf => rfl
  | crlf =>
    have hdrop : ∀ l, Lua.statements (LineBreak.dropReturn l) = Lua.statements l := by
      intro l
      rw [LineBreak.dropReturn]
      split
      · next hlast =>
        obtain ⟨front, rfl⟩ := List.getLast?_eq_some_iff.1 hlast
        rw [List.dropLast_concat, statements_append_return]
      · rfl
    rw [statementsOfLines, LineBreak.lines, List.flatMap_map]
    exact congrArg (List.flatMap · (Text.lines text)) (funext hdrop)

/-- The statements of joined lines are those of the lines. -/
theorem statementsOfLines_join {ls : List Line} (hls : ∀ l ∈ ls, '\n' ∉ l) (b : LineBreak) :
    statementsOfLines (Text.lines (join b.text ls)) = statementsOfLines ls := by
  by_cases hne : ls = []
  · subst hne
    rfl
  cases b with
  | lf => rw [LineBreak.text, Text.lines_join hne hls]
  | crlf =>
    obtain ⟨front, last, rfl⟩ := (List.eq_nil_or_concat' ls).resolve_left hne
    rw [List.forall_mem_append] at hls
    rw [LineBreak.text, lines_join_crlf (hls.2 last (List.mem_singleton_self last)) hls.1,
      statementsOfLines_append, statementsOfLines_append, statementsOfLines, List.flatMap_map]
    simp only [statements_append_return]
    rfl

/-! ## Patching -/

namespace Scene

variable {s : Scene}

/-- Blocks written anew leave the count of the lines outside them as it is. -/
theorem Drawable.openAfter_of_becomes (h : s.Drawable) {parts : List Segment}
    {chunks : List (List Line)} (hall : List.Forall₂ s.Becomes parts chunks) {depth : ℕ}
    (hdepth : 1 ≤ depth) : openAfter depth (statementsOfLines chunks.flatten) =
      openAfter depth (statementsOfLines (linesOutside parts)) := by
  induction hall generalizing depth with
  | nil => rfl
  | @cons part chunk parts chunks hbecomes _ ih =>
    rw [List.flatten_cons, linesOutside, List.flatMap_cons, ← linesOutside]
    cases hbecomes with
    | line l =>
      rw [statementsOfLines_append, statementsOfLines_append, openAfter_append, openAfter_append]
      cases hl : openAfter depth (statementsOfLines [l]) with
      | none => rfl
      | some d => exact ih (one_le_of_openAfter hdepth hl)
    | gone => exact ih hdepth
    | @block id marker region chunk entry hentry hchunk =>
      have hblock : Neutral chunk :=
        (h.elements entry hentry).neutral_block (by simp [indentOf]) hchunk
      exact (hblock.openAfter_insert [] chunks.flatten hdepth).trans (ih hdepth)

/-- Without the blocks that are neutral, the count is that of all lines. -/
theorem openAfter_linesOutside {parts : List Segment}
    (hblocks : ∀ part ∈ parts, part.isBlock = true → Neutral part.lines) {depth : ℕ}
    (hdepth : 1 ≤ depth) : openAfter depth (statementsOfLines (linesOutside parts)) =
      openAfter depth (statementsOfLines (parts.flatMap Segment.lines)) := by
  induction parts generalizing depth with
  | nil => rfl
  | cons part parts ih =>
    rw [List.forall_mem_cons] at hblocks
    rw [linesOutside, List.flatMap_cons, List.flatMap_cons, ← linesOutside]
    cases part with
    | line l =>
      rw [Segment.lines, statementsOfLines_append, statementsOfLines_append, openAfter_append,
        openAfter_append]
      cases hl : openAfter depth (statementsOfLines [l]) with
      | none => rfl
      | some d => exact ih hblocks.2 (one_le_of_openAfter hdepth hl)
    | block id marker region =>
      have hneutral := hblocks.1 rfl
      exact (ih hblocks.2 hdepth).trans
        (hneutral.openAfter_insert [] (parts.flatMap Segment.lines) hdepth).symm

namespace Drawable

variable (h : s.Drawable)

include h

/-- What is drawn anew is balanced when the lines outside the blocks were. -/
theorem openAfter_redrawn {parts : List Segment} {ls : List Line} (hls : s.redrawn parts = .ok ls)
    {depth : ℕ} (hdepth : 1 ≤ depth) : openAfter depth (statementsOfLines ls) =
      openAfter depth (statementsOfLines (linesOutside parts)) := by
  obtain ⟨r, hr, hadd⟩ := bind_eq_ok.1 hls
  obtain ⟨chunks, hall, hflatten⟩ := exists_becomes_of_replaceBlocks hr
  obtain ⟨front, back, indent, run, hcut, rfl, hrun, hindent, -⟩ := exists_cut_of_addBlocks hadd
  have hneutral : Neutral run := neutral_of_blocksOf
    (fun e he => h.drawable_of_mem (List.mem_of_mem_filter he)) hindent hrun
  rw [hneutral.openAfter_insert front back hdepth, hcut, ← hflatten]
  exact h.openAfter_of_becomes hall hdepth

omit h in
/-- So it is with stubs. -/
theorem balanced_appendLines_iff {ls : List Line} {names : List (List Char)}
    (hnames : ∀ name ∈ names, isCallee name = true) :
    Balanced (statementsOfLines (appendLines ls (names.map handlerStub))) ↔
      Balanced (statementsOfLines ls) := by
  obtain ⟨a, b, rfl, happend, -⟩ := exists_appendLines_eq ls (names.map handlerStub)
  rw [happend, balanced_iff, balanced_iff, (neutral_stubs hnames).openAfter_insert a b le_rfl]

/-- The whole script of a scene is balanced. -/
theorem balanced_script {blocks : List Line}
    (hblocks : blocksOf (indentStep ++ indentStep) s.orderedElements = .ok blocks) :
    Balanced (statementsOfLines
      (headerLines ++ blocks ++ footerLines ++ s.handlers.map handlerStub ++ [[]])) := by
  have hneutral : Neutral blocks :=
    neutral_of_blocksOf (fun e he => h.drawable_of_mem he) (by decide) hblocks
  have hframe :
      openAfter 1 (statementsOfLines (headerLines ++ (footerLines ++ [[]]))) = some 1 := by
    decide +kernel
  have hassoc : headerLines ++ blocks ++ footerLines ++ s.handlers.map handlerStub ++ [[]] =
      headerLines ++ blocks ++ (footerLines ++ s.handlers.map handlerStub ++ [[]]) := by
    simp only [List.append_assoc]
  have hstubs := (neutral_stubs h.isCallee_of_mem_handlers).openAfter_insert
    (headerLines ++ footerLines) [[]] le_rfl
  simp only [List.append_assoc] at hstubs
  rw [balanced_iff, hassoc, hneutral.openAfter_insert _ _ le_rfl]
  simp only [List.append_assoc]
  rw [hstubs, hframe]

/-- Unless a marker has a size of too many digits, a patched script is balanced exactly when the
lines outside the blocks of the script were, or when there were no blocks. So a balanced script
stays balanced if each of its blocks is balanced, to the end of its last line. -/
theorem balanced_patch (text : List Char) :
    ((∃ l ∈ (LineBreak.ofText text).lines text, ¬ Marker.Legible l) ∧
      ∃ err, s.patch text = .error err) ∨
    ∃ parts code, segments ((LineBreak.ofText text).lines text) = .ok parts ∧
      s.patch text = .ok code ∧
      (Balanced (statementsOfLines (Text.lines code)) ↔ (parts.any Segment.isBlock = true →
        Balanced (statementsOfLines (linesOutside parts)))) ∧
      (Balanced (statementsOfLines (Text.lines text)) →
        (∀ part ∈ parts, part.isBlock = true → Balanced (statementsOfLines part.lines)) →
          Balanced (statementsOfLines (Text.lines code))) := by
  have hstubs : ∀ ls, ∀ l ∈ (undeclared ls s.handlers).map handlerStub, '\n' ∉ l := by
    intro ls l hl
    obtain ⟨name, hname, rfl⟩ := List.mem_map.1 hl
    exact h.lineFeed_notMem_handlerStub _ (List.mem_map_of_mem (List.mem_of_mem_filter hname))
  rcases h.patch_cases text with hillegible |
    ⟨parts, ls, hparts, hblock, hls, hfeed, hpatch⟩ |
    ⟨parts, blocks, hparts, hblock, hblocks, hfeed, hpatch⟩
  · exact .inl hillegible
  · have hall : ∀ l ∈ appendLines ls ((undeclared ls s.handlers).map handlerStub), '\n' ∉ l :=
      fun l hl => (mem_appendLines.1 hl).elim (hfeed l) (hstubs ls l)
    have hcallee : ∀ name ∈ undeclared ls s.handlers, isCallee name = true := fun name hname =>
      h.isCallee_of_mem_handlers name (List.mem_of_mem_filter hname)
    have hiff : Balanced (statementsOfLines (Text.lines (join (LineBreak.ofText text).text
        (appendLines ls ((undeclared ls s.handlers).map handlerStub))))) ↔
          Balanced (statementsOfLines (linesOutside parts)) := by
      rw [statementsOfLines_join hall, balanced_appendLines_iff hcallee, balanced_iff, balanced_iff,
        h.openAfter_redrawn hls le_rfl]
    refine .inr ⟨parts, _, hparts, hpatch, by rw [hiff]; simp [hblock], fun htext hblocks => ?_⟩
    have houtside := openAfter_linesOutside (fun part hpart hb => (hblocks part hpart hb).neutral)
      le_rfl
    rw [hiff, balanced_iff, houtside, lines_segments hparts, statementsOfLines_lines,
      ← balanced_iff]
    exact htext
  · have hall : ∀ l ∈ headerLines ++ blocks ++ footerLines ++ s.handlers.map handlerStub ++ [[]],
        '\n' ∉ l :=
      List.forall_mem_append.2 ⟨List.forall_mem_append.2 ⟨hfeed, h.lineFeed_notMem_handlerStub⟩,
        by simp⟩
    have hbalanced := h.balanced_script hblocks
    rw [← statementsOfLines_join hall (LineBreak.ofText text)] at hbalanced
    exact .inr ⟨parts, _, hparts, hpatch, iff_of_true hbalanced (by simp [hblock]),
      fun _ _ => hbalanced⟩

end Drawable

/-- A box. -/
def oneBox : Scene := empty.add (Element.ofType .rect "a" 0 0)

theorem readable_oneBox : oneBox.Readable :=
  readable_empty.add (Element.readable_ofType rfl (by decide) (by decide) (by decide +kernel)
    (by decide +kernel)) (by decide)

/-- A script of a box in a frame of its own, which is balanced. -/
def framedScript : List Char :=
  "UiPush()\n--TDGUI id=a type=rect\nUiPush()\nUiRect(1, 1)\nUiPop()\nUiPop()\n".toList

/-- It stays balanced. -/
theorem balanced_patch_framedScript : oneBox.Drawable ∧
    Balanced (statementsOfLines (Text.lines framedScript)) ∧
    (((∃ l ∈ (LineBreak.ofText framedScript).lines framedScript, ¬ Marker.Legible l) ∧
      ∃ err, oneBox.patch framedScript = .error err) ∨
    ∃ parts code, segments ((LineBreak.ofText framedScript).lines framedScript) = .ok parts ∧
      oneBox.patch framedScript = .ok code ∧
      (Balanced (statementsOfLines (Text.lines code)) ↔ (parts.any Segment.isBlock = true →
        Balanced (statementsOfLines (linesOutside parts)))) ∧
      (Balanced (statementsOfLines (Text.lines framedScript)) →
        (∀ part ∈ parts, part.isBlock = true → Balanced (statementsOfLines part.lines)) →
          Balanced (statementsOfLines (Text.lines code)))) :=
  ⟨readable_oneBox.drawable, by decide +kernel,
    Drawable.balanced_patch readable_oneBox.drawable framedScript⟩

/-- A script that closes a block and opens the next on one line. -/
def adjoiningScript : List Char :=
  ("UiPush()\n--TDGUI id=a type=rect\nUiPush()\nUiRect(1, 1)\nUiPop(); UiPush()\n" ++
    "UiPop()\nUiPop()\n").toList

/-- It is balanced, but the patched script is not: the opening goes with the block before it. -/
theorem not_balanced_patch : oneBox.Readable ∧
    Balanced (statementsOfLines (Text.lines adjoiningScript)) ∧
    ∃ code, oneBox.patch adjoiningScript = .ok code ∧
      ¬ Balanced (statementsOfLines (Text.lines code)) := by
  have hcode : ((oneBox.patch adjoiningScript).toOption.any fun code =>
      !decide (Balanced (statementsOfLines (Text.lines code)))) = true := by
    decide +kernel
  refine ⟨readable_oneBox, by decide +kernel, ?_⟩
  cases hpatch : oneBox.patch adjoiningScript with
  | error err =>
    rw [hpatch] at hcode
    cases hcode
  | ok code =>
    rw [hpatch] at hcode
    exact ⟨code, rfl, by simpa [Except.toOption] using hcode⟩

end Scene

end SceneScript
