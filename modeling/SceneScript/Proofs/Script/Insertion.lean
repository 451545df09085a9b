import SceneScript.Proofs.Script.Layout

/-!
# Lines put into a script

A script falls into its segments because its lines outside blocks own nothing and its blocks are
regions behind their markers (`Segmented`). Both outlast lines that are put in behind, where these
close all blocks that they open (`Segmented.replace`); so blocks and stubs can be put into a script,
between segments or before the end of a written block, and its other segments stay.

The place for new blocks is before a line that closes a block: between segments, or before the last
line of a written block (`exists_cut_of_closesOnLine`). It does not change when stubs are put in
behind it (`insertionPoint?_insert`).
-/

namespace SceneScript

open Lua Text

/-! ## Segments -/

/-- That a line owns no block, given the lines behind it. -/
def OwnsNothing (l : Line) (behind : List Line) : Prop :=
  ∃ marker?, Marker.read l = .ok marker? ∧ ownedBlock? marker? behind = none

/-- That a line is the marker of a block. -/
structure IsOwned (id : String) (marker : Line) (region : List Line) : Prop where
  marker : ∃ m, Marker.read marker = .ok (some m) ∧ m.id? = some id
  region : IsLeading region

theorem ownsNothing_of_read {l : Line} (h : Marker.read l = .ok none) (behind : List Line) :
    OwnsNothing l behind :=
  ⟨none, h, ownedBlock?_of_owner? rfl behind⟩

theorem OwnsNothing.insert {l : Line} {a c new : List Line} (h : OwnsNothing l (a ++ c))
    (hnew : Filler new) : OwnsNothing l (a ++ new ++ c) := by
  obtain ⟨marker?, hread, howned⟩ := h
  refine ⟨marker?, hread, Option.eq_none_iff_forall_not_mem.2 fun ⟨id, region, rest⟩ hmem => ?_⟩
  obtain ⟨howner, hregion⟩ := ownedBlock?_eq_some_iff.1 hmem
  cases hnone : leadingRegion? (a ++ c) with
  | none => exact absurd (hregion.symm.trans (leadingRegion?_insert hnone hnew)) (by simp)
  | some r =>
    exact absurd (howned.symm.trans (ownedBlock?_eq_some_iff.2 ⟨howner, hnone⟩)) (by simp)

/-- That segments are those of their lines. -/
inductive Segmented : List Segment → Prop
  | nil : Segmented []
  | line {l : Line} {parts : List Segment}
      (head : OwnsNothing l (parts.flatMap Segment.lines)) (tail : Segmented parts) :
      Segmented (.line l :: parts)
  | block {id : String} {marker : Line} {region : List Line} {parts : List Segment}
      (head : IsOwned id marker region) (tail : Segmented parts) :
      Segmented (.block id marker region :: parts)

namespace Segmented

/-- The segments of the lines of segments. -/
theorem segments_eq {parts : List Segment} (h : Segmented parts) :
    segments (parts.flatMap Segment.lines) = .ok parts := by
  induction h with
  | nil => rw [List.flatMap_nil, segments]
  | @line l parts head _ ih =>
    obtain ⟨marker?, hread, howned⟩ := head
    rw [List.flatMap_cons, Segment.lines, List.singleton_append, segments_line hread howned, ih]
    rfl
  | @block id marker region parts head _ ih =>
    obtain ⟨m, hread, hid⟩ := head.marker
    have howned : ownedBlock? (some m) (region ++ parts.flatMap Segment.lines) =
        some (id, region, parts.flatMap Segment.lines) :=
      ownedBlock?_eq_some_iff.2 ⟨hid, leadingRegion?_append_of_isLeading head.region _⟩
    rw [List.flatMap_cons, Segment.lines, List.cons_append, segments_block hread howned, ih]
    rfl

theorem of_append {a b : List Segment} (h : Segmented (a ++ b)) : Segmented b := by
  induction a with
  | nil => exact h
  | cons part a ih =>
    cases h with
    | line _ tail => exact ih tail
    | block _ tail => exact ih tail

theorem of_append_cons {a b : List Segment} {part : Segment} (h : Segmented (a ++ part :: b)) :
    Segmented b := by
  rw [← List.singleton_append, ← List.append_assoc] at h
  exact h.of_append

/-- Segments stay when lines are put in behind them. -/
theorem replace {a b b' : List Segment} (h : Segmented (a ++ b)) (hb' : Segmented b')
    {x y new : List Line} (hlines : b.flatMap Segment.lines = x ++ y)
    (hlines' : b'.flatMap Segment.lines = x ++ new ++ y) (hnew : Filler new) :
    Segmented (a ++ b') := by
  induction a with
  | nil => exact hb'
  | cons part a ih =>
    cases h with
    | line head tail =>
      have head : OwnsNothing _ ((a ++ b).flatMap Segment.lines) := head
      refine .line (?_ : OwnsNothing _ ((a ++ b').flatMap Segment.lines)) (ih tail)
      rw [List.flatMap_append, hlines, ← List.append_assoc] at head
      rw [List.flatMap_append, hlines', ← List.append_assoc, ← List.append_assoc]
      exact head.insert hnew
    | block head tail => exact .block head (ih tail)

/-- Further segments can be put in between, if they are segments whatever follows them. -/
theorem insert {a b new : List Segment} (h : Segmented (a ++ b))
    (hnew : ∀ c, Segmented c → Segmented (new ++ c))
    (hfiller : Filler (new.flatMap Segment.lines)) : Segmented (a ++ (new ++ b)) :=
  h.replace (x := []) (hnew b h.of_append) rfl List.flatMap_append hfiller

end Segmented

theorem IsOwned.exists_last {id : String} {marker : Line} {region : List Line}
    (h : IsOwned id marker region) : ∃ front l, region = front ++ [l] ∧ l ≠ [] := by
  obtain ⟨front, l, heq, hl⟩ := h.region.exists_last
  exact ⟨front, l, heq, fun hnil => hl (by rw [hnil, statements_of_blank rfl])⟩

/-- The lines that are put in at the end go between segments. -/
theorem Segmented.exists_end {parts : List Segment} (h : Segmented parts) :
    ∃ a b, parts = a ++ b ∧ ∀ front added : List Line, front.getLast? ≠ some [] →
      appendLines (front ++ parts.flatMap Segment.lines) added =
        front ++ a.flatMap Segment.lines ++ added ++ b.flatMap Segment.lines := by
  rcases List.eq_nil_or_concat' parts with rfl | ⟨parts, part, rfl⟩
  · refine ⟨[], [], rfl, fun front added hfront => ?_⟩
    rw [appendLines, if_neg (by simpa using hfront)]
    simp
  · by_cases hpart : part = .line []
    · subst hpart
      refine ⟨parts, [.line []], rfl, fun front added _ => ?_⟩
      have hlines : front ++ (parts ++ [Segment.line []]).flatMap Segment.lines =
          front ++ parts.flatMap Segment.lines ++ [[]] := by simp [Segment.lines]
      rw [hlines, appendLines_nil]
      rfl
    · refine ⟨parts ++ [part], [], (List.append_nil _).symm, fun front added _ => ?_⟩
      have hlast : ∃ init l, part.lines = init ++ [l] ∧ l ≠ [] := by
        cases h.of_append with
        | @line l => exact ⟨[], l, rfl, fun hnil => hpart (hnil ▸ rfl)⟩
        | block head =>
          obtain ⟨init, l, rfl, hl⟩ := head.exists_last
          exact ⟨_ :: init, l, rfl, hl⟩
      obtain ⟨init, l, hl, hne⟩ := hlast
      rw [appendLines, if_neg (by simp [hl, ← List.append_assoc, hne])]
      simp

/-! ## Blocks and stubs -/

namespace Drawing

variable (d : Drawing) {indent : List Char} (hindent : indent.all isBlank = true)

theorem lines_segment (indent : List Char) : (d.segment indent).lines = d.lines indent := rfl

theorem flatMap_lines_segment (ds : List Drawing) (indent : List Char) :
    (ds.map fun d => d.segment indent).flatMap Segment.lines = ds.flatMap fun d => d.lines indent :=
  List.flatMap_map ..

include hindent

theorem isOwned_of_isLeading {region : List Line} (h : IsLeading region) :
    IsOwned d.element.id (indent ++ Marker.text d.element d.frame.w d.frame.h) region :=
  ⟨⟨_, d.read_marker hindent, rfl⟩, h⟩

omit hindent in
/-- The block of a drawing, with lines put in before its last one. -/
def inserted (indent : List Char) (new : List Line) : Segment :=
  .block d.element.id (indent ++ Marker.text d.element d.frame.w d.frame.h)
    ((indent ++ "UiPush()".toList) ::
      (d.inner.map (indent ++ indentStep ++ ·) ++ new ++ [indent ++ "UiPop()".toList]))

omit hindent in
theorem lines_eq_concat (indent : List Char) :
    d.lines indent = (d.lines indent).dropLast ++ [indent ++ "UiPop()".toList] := by
  rw [lines_eq, ← List.cons_append, ← List.cons_append, List.dropLast_concat]

omit hindent in
theorem lines_inserted (indent : List Char) (new : List Line) : (d.inserted indent new).lines =
    (d.lines indent).dropLast ++ new ++ [indent ++ "UiPop()".toList] := by
  rw [lines_eq, ← List.cons_append, ← List.cons_append, List.dropLast_concat, inserted,
    Segment.lines]
  simp

/-- Lines can be put in before the last one of a written block. -/
theorem segmented_inserted {a b : List Segment} (h : Segmented (a ++ d.segment indent :: b))
    {new : List Line} (hnew : Filler new) : Segmented (a ++ d.inserted indent new :: b) := by
  have howned := d.isOwned_of_isLeading hindent (d.isLeading_insert hindent hnew)
  refine h.replace (x := (d.lines indent).dropLast)
    (y := (indent ++ "UiPop()".toList) :: b.flatMap Segment.lines) (.block howned h.of_append_cons)
    ?_ ?_ hnew
  · rw [List.flatMap_cons, d.lines_segment]
    conv_lhs => rw [d.lines_eq_concat]
    rw [List.append_assoc]
    rfl
  · rw [List.flatMap_cons, d.lines_inserted, List.append_assoc]
    rfl

theorem segmented_append (ds : List Drawing) {c : List Segment} (hc : Segmented c) :
    Segmented ((ds.map fun d => d.segment indent) ++ c) := by
  induction ds with
  | nil => exact hc
  | cons d ds ih => exact .block (d.isOwned_of_isLeading hindent (d.isLeading_tail hindent)) ih

theorem filler_flatMap (ds : List Drawing) : Filler (ds.flatMap fun d => d.lines indent) := by
  induction ds with
  | nil => exact filler_nil
  | cons d ds ih => exact (d.filler_lines hindent).append ih

/-- Blocks can be put in between segments. -/
theorem segmented_insert (ds : List Drawing) {a b : List Segment} (h : Segmented (a ++ b)) :
    Segmented (a ++ ((ds.map fun d => d.segment indent) ++ b)) :=
  h.insert (fun _ hc => segmented_append hindent ds hc)
    (flatMap_lines_segment ds indent ▸ filler_flatMap hindent ds)

end Drawing

theorem flatMap_lines_line (ls : List Line) : (ls.map Segment.line).flatMap Segment.lines = ls := by
  rw [List.flatMap_map]
  exact List.flatMap_singleton' ls

section Stubs

variable {names : List (List Char)} (h : ∀ name ∈ names, isCallee name = true)

include h

theorem filler_stubs : Filler (names.map handlerStub) := by
  refine ⟨fun l hl => ?_, fun depth _ => openAfter_of_inert fun σ hσ => ?_⟩
  · obtain ⟨name, hname, rfl⟩ := List.mem_map.1 (List.mem_of_mem_head? hl)
    refine ⟨(isStatement_handlerStub (h name hname)).tight.not_isBlankText, ?_⟩
    rw [startsRegion, statements_handlerStub (h name hname)]
    exact (quiet_handlerStub (h name hname)).opens
  · obtain ⟨l, hl, hσ⟩ := List.mem_flatMap.1 hσ
    obtain ⟨name, hname, rfl⟩ := List.mem_map.1 hl
    rw [statements_handlerStub (h name hname)] at hσ
    exact List.mem_singleton.1 hσ ▸ (quiet_handlerStub (h name hname)).toInert

theorem segmented_stubs {c : List Segment} (hc : Segmented c) :
    Segmented ((names.map handlerStub).map .line ++ c) := by
  induction names with
  | nil => exact hc
  | cons name names ih =>
    exact .line (ownsNothing_of_read (read_handlerStub (h name List.mem_cons_self)) _)
      (ih fun name' hname' => h name' (List.mem_cons_of_mem _ hname'))

/-- Stubs can be put in between segments. -/
theorem segmented_insert_stubs {a b : List Segment} (hab : Segmented (a ++ b)) :
    Segmented (a ++ ((names.map handlerStub).map .line ++ b)) :=
  hab.insert (fun _ hc => segmented_stubs h hc)
    ((flatMap_lines_line _).symm ▸ filler_stubs h)

end Stubs

/-! ## The place of new blocks -/

theorem of_splitAtLast? {α : Type} {p : α → Bool} {l before after : List α} {a : α}
    (h : splitAtLast? p l = some (before, a, after)) : p a = true ∧ ∀ b ∈ after, p b = false := by
  induction l generalizing before with
  | nil => cases h
  | cons b l ih =>
    rw [splitAtLast?] at h
    split at h
    · next hs =>
      simp only [Option.some.injEq, Prod.mk.injEq] at h
      obtain ⟨rfl, rfl, rfl⟩ := h
      exact ih hs
    · next hnone =>
      split at h
      · next hb =>
        simp only [Option.some.injEq, Prod.mk.injEq] at h
        obtain ⟨rfl, rfl, rfl⟩ := h
        exact ⟨hb, splitAtLast?_eq_none_iff.1 hnone⟩
      · cases h

/-- Where the place for new blocks is: in the drawing function, before the last line of its body
that closes a block. -/
theorem exists_split_of_insertionPoint? {ls : List Line} {p : InsertionPoint}
    (h : insertionPoint? ls = some p) : ∃ front decl body closing back behind,
      p = ⟨front ++ decl :: body, closing :: back ++ behind, indentOf closing ++ indentStep⟩ ∧
      (∀ l ∈ front, declaresDraw l = false) ∧ declaresDraw decl = true ∧
      (∀ l ∈ body ++ closing :: back, isWithin (indentOf decl) l = true) ∧
      closesOnLine closing = true ∧ (∀ l ∈ back, closesOnLine l = false) ∧
      ∀ l ∈ behind.head?, isWithin (indentOf decl) l = false := by
  unfold insertionPoint? at h
  split at h
  · cases h
  · next decl rest hdrop =>
    split at h
    · cases h
    · next body closing back hsplit =>
      obtain rfl := Option.some.inj h
      obtain ⟨hclosing, hback⟩ := of_splitAtLast? hsplit
      refine ⟨_, decl, body, closing, back, _, rfl, fun l hl => ?_, ?_, fun l hl => ?_, hclosing,
        hback, fun l hl => ?_⟩
      · simpa using List.mem_takeWhile_imp hl
      · have := List.head?_dropWhile_not (fun l => !declaresDraw l) ls
        rw [hdrop] at this
        simpa using this
      · rw [append_of_splitAtLast? hsplit] at hl
        exact List.mem_takeWhile_imp hl
      · have := List.head?_dropWhile_not (isWithin (indentOf decl)) rest
        rw [Option.mem_def.1 hl] at this
        exact this

/-- The place for new blocks stays when lines are put in behind it that close nothing and end no
declaration. -/
theorem insertionPoint?_insert {ls new a b : List Line} {p : InsertionPoint} {closing : Line}
    (h : insertionPoint? ls = some p) (hafter : p.after = closing :: a ++ b)
    (hnew : ∀ l ∈ new, closesOnLine l = false ∧ ∀ indent, isWithin indent l = true) :
    insertionPoint? (p.before ++ (closing :: a ++ new ++ b)) =
      some ⟨p.before, closing :: a ++ new ++ b, p.indent⟩ := by
  obtain ⟨front, decl, body, closing', back, behind, rfl, hfront, hdecl, hwithin, hclosing, hback,
    hbehind⟩ := exists_split_of_insertionPoint? h
  obtain ⟨rfl, hsplit⟩ := List.cons.inj hafter
  rw [List.forall_mem_append, List.forall_mem_cons] at hwithin
  -- the new lines belong to the body of the function, or they stand behind it
  have hbody : ∀ c, back = a ++ c → b = c ++ behind →
      insertionPoint? (front ++ decl :: body ++ (closing' :: a ++ new ++ b)) =
        some ⟨front ++ decl :: body, closing' :: a ++ new ++ b,
          indentOf closing' ++ indentStep⟩ := by
    rintro c rfl rfl
    have hpoint := insertionPoint?_of_split body (a ++ new ++ c) behind hfront hdecl
      (by
        simp only [List.forall_mem_append, List.forall_mem_cons] at hwithin ⊢
        exact ⟨hwithin.1, hwithin.2.1, ⟨hwithin.2.2.1, fun l hl => (hnew l hl).2 _⟩, hwithin.2.2.2⟩)
      hclosing
      (by
        simp only [List.forall_mem_append] at hback ⊢
        exact ⟨⟨hback.1, fun l hl => (hnew l hl).1⟩, hback.2⟩)
      hbehind
    simpa using hpoint
  rcases List.append_eq_append_iff.1 hsplit with ⟨c, rfl, rfl⟩ | ⟨c, hc, hb⟩
  · cases c with
    | nil => exact hbody [] (by simp) rfl
    | cons l c =>
      have hpoint := insertionPoint?_of_split body back (l :: c ++ new ++ b) hfront
        hdecl (by rwa [List.forall_mem_append, List.forall_mem_cons]) hclosing hback hbehind
      simpa using hpoint
  · exact hbody c hc hb

theorem closesOnLine_nil : closesOnLine [] = false := by
  decide

/-- A stub closes nothing and ends no declaration. -/
theorem handlerStub_stays {name : List Char} (h : isCallee name = true) :
    closesOnLine (handlerStub name) = false ∧
      ∀ indent, isWithin indent (handlerStub name) = true := by
  refine ⟨?_, fun indent => ?_⟩
  · rw [closesOnLine, statements_handlerStub h, List.any_cons, (quiet_handlerStub h).closes]
    rfl
  · have hne : trim (handlerStub name) ≠ "end".toList := by
      rw [(isStatement_handlerStub h).tight.trim]
      exact fun heq => absurd (List.cons.inj heq).1 (by decide)
    simp only [isWithin, hne, decide_false, Bool.false_and, Bool.not_false]

/-- Lines are put in at the end, or before an empty last line. -/
theorem exists_appendLines_eq (ls added : List Line) :
    ∃ a b, ls = a ++ b ∧ appendLines ls added = a ++ added ++ b ∧
      (b = [] ∧ ls.getLast? ≠ some [] ∨ b = [[]]) := by
  by_cases hlast : ls.getLast? = some []
  · exact ⟨ls.dropLast, [[]], (List.dropLast_append_getLast? [] hlast).symm, if_pos hlast, .inr rfl⟩
  · exact ⟨ls, [], (List.append_nil ls).symm, by rw [appendLines, if_neg hlast, List.append_nil],
      .inl ⟨rfl, hlast⟩⟩

theorem appendLines_append {a b : List Line} (hb : b ≠ []) (added : List Line) :
    appendLines (a ++ b) added = a ++ appendLines b added := by
  rw [appendLines, appendLines, List.getLast?_append_of_ne_nil _ hb,
    List.dropLast_append_of_ne_nil hb]
  split
  · simp
  · simp

/-- The place for new blocks stays when stubs are put in at the end. -/
theorem insertionPoint?_appendLines {ls : List Line} {p : InsertionPoint} {names : List (List Char)}
    (h : insertionPoint? ls = some p) (hnames : ∀ name ∈ names, isCallee name = true) :
    insertionPoint? (appendLines ls (names.map handlerStub)) =
      some ⟨p.before, appendLines p.after (names.map handlerStub), p.indent⟩ := by
  obtain ⟨front, decl, body, closing, back, behind, hp, -, -, -, hclosing, -⟩ :=
    exists_split_of_insertionPoint? h
  have hafter : p.after = closing :: (back ++ behind) := by rw [hp]; rfl
  have hne : p.after ≠ [] := hafter ▸ List.cons_ne_nil _ _
  have hstubs : ∀ l ∈ names.map handlerStub,
      closesOnLine l = false ∧ ∀ indent, isWithin indent l = true := by
    intro l hl
    obtain ⟨name, hname, rfl⟩ := List.mem_map.1 hl
    exact handlerStub_stays (hnames name hname)
  obtain ⟨a, b, hab, happend, hb⟩ := exists_appendLines_eq p.after (names.map handlerStub)
  obtain ⟨a, rfl⟩ : ∃ a', a = closing :: a' := by
    rw [hafter] at hab
    cases a with
    | nil =>
      -- the last line would be the one that closes a block
      rcases hb with ⟨rfl, -⟩ | rfl
      · cases hab
      · rw [(List.cons.inj hab).1, closesOnLine_nil] at hclosing
        cases hclosing
    | cons l a => exact ⟨a, by rw [(List.cons.inj hab).1]⟩
  rw [← append_of_insertionPoint? h, appendLines_append hne, happend]
  exact insertionPoint?_insert h hab hstubs

/-! ## Cuts -/

/-- A written block closes a block on its last line alone. -/
theorem Drawing.closesOnLine_of_mem_dropLast (d : Drawing) {indent : List Char}
    (hindent : indent.all isBlank = true) :
    ∀ l ∈ (d.lines indent).dropLast, closesOnLine l = false := by
  intro l hl
  rw [d.lines_eq, ← List.cons_append, ← List.cons_append, List.dropLast_concat] at hl
  rcases List.mem_cons.1 hl with rfl | hl
  · have hmarker := d.statements_marker hindent []
    rw [List.append_nil] at hmarker
    rw [closesOnLine, hmarker]
    rfl
  · rcases List.mem_cons.1 hl with rfl | hl
    · rw [closesOnLine, statements_of_indent hindent isStatement_opening]
      decide
    · refine List.any_eq_false.2 fun σ hσ => ?_
      rw [(d.inert_of_mem_inner hindent l hl σ hσ).closes]
      exact Bool.false_ne_true

/-- Segments that close a block on their last lines alone are cut before a line that closes a block
between them, or before the last line of one. -/
theorem exists_cut_of_closesOnLine {parts : List Segment} {front back : List Line} {k : Line}
    (hcut : parts.flatMap Segment.lines = front ++ k :: back) (hk : closesOnLine k = true)
    (hparts : ∀ part ∈ parts, ∀ l ∈ part.lines.dropLast, closesOnLine l = false) :
    (∃ a b, parts = a ++ b ∧ front = a.flatMap Segment.lines) ∨
    ∃ a part b, parts = a ++ part :: b ∧
      front = a.flatMap Segment.lines ++ part.lines.dropLast := by
  induction parts generalizing front with
  | nil => simp at hcut
  | cons part parts ih =>
    rw [List.flatMap_cons] at hcut
    rcases List.append_eq_append_iff.1 hcut with ⟨c, rfl, hrest⟩ | ⟨c, hpart, hrest⟩
    · rcases ih hrest fun p hp => hparts p (List.mem_cons_of_mem _ hp) with
        ⟨a, b, rfl, rfl⟩ | ⟨a, part', b, rfl, rfl⟩
      · exact .inl ⟨part :: a, b, rfl, rfl⟩
      · exact .inr ⟨part :: a, part', b, rfl, (List.append_assoc ..).symm⟩
    · cases c with
      | nil => exact .inl ⟨[part], parts, rfl, by simpa using hpart.symm⟩
      | cons k' c =>
        obtain ⟨rfl, rfl⟩ := List.cons.inj hrest
        rcases List.eq_nil_or_concat' c with rfl | ⟨c, j, rfl⟩
        · exact .inr ⟨[], part, parts, rfl, by rw [hpart]; simp⟩
        · -- the line would be one of the segment before its last
          have hmem : k ∈ part.lines.dropLast := by
            rw [hpart, ← List.cons_append, ← List.append_assoc, List.dropLast_concat]
            exact List.mem_append_right _ List.mem_cons_self
          exact absurd hk (by simp [hparts part List.mem_cons_self k hmem])

end SceneScript
