import SceneScript.Proofs.Script.Region
import SceneScript.Proofs.Script.RoundTrip

/-!
# The segments of a written script

In a script that was written as a whole every block is owned by its element, and the lines around
the blocks own nothing. Inside a block nothing is opened or closed, so its region is the block.

Main statement: the segments of such a script are its lines and the blocks of its drawings, in order
(`Drawing.segments_scriptLines`).
-/

namespace SceneScript

open Lua Text

/-! ## One segment at a time -/

/-- A line that owns no block is a segment of its own. -/
theorem segments_line {l : Line} {marker? : Option Marker} (h : Marker.read l = .ok marker?)
    {ls : List Line} (howned : ownedBlock? marker? ls = none) :
    segments (l :: ls) = (segments ls).map (.line l :: ·) := by
  cases ls with
  | nil =>
    rw [segments, segments]
    rfl
  | cons next ls =>
    rw [segments, h]
    dsimp only
    split
    · rfl
    · next hsome => exact absurd (howned.symm.trans hsome) (by simp)

theorem ownedBlock?_of_owner? {marker? : Option Marker} (h : Marker.owner? marker? = none)
    (ls : List Line) : ownedBlock? marker? ls = none := by
  rw [ownedBlock?, h]

/-- A marker with the region that it owns is a segment. -/
theorem segments_block {l : Line} {marker? : Option Marker} (h : Marker.read l = .ok marker?)
    {id : String} {region ls rest : List Line}
    (howned : ownedBlock? marker? ls = some (id, region, rest)) :
    segments (l :: ls) = (segments rest).map (.block id l region :: ·) := by
  cases ls with
  | nil =>
    have hregion := (ownedBlock?_eq_some_iff.1 howned).2
    simp [leadingRegion?] at hregion
  | cons next ls =>
    rw [segments, h]
    dsimp only
    split
    · next hnone => exact absurd (howned.symm.trans hnone) (by simp)
    · next id' region' rest' hsome =>
      have heq := Option.some.inj (howned.symm.trans hsome)
      simp only [Prod.mk.injEq] at heq
      obtain ⟨rfl, rfl, rfl⟩ := heq
      rfl

/-- Where every line can be read, the segments are found. -/
theorem exists_segments (ls : List Line) (h : ∀ l ∈ ls, ∃ marker?, Marker.read l = .ok marker?) :
    ∃ parts, segments ls = .ok parts := by
  fun_induction segments ls with
  | case1 => exact ⟨[], rfl⟩
  | case2 l => exact ⟨[.line l], rfl⟩
  | case3 l next ls err hread =>
    obtain ⟨marker?, hmarker⟩ := h l List.mem_cons_self
    exact absurd (hread.symm.trans hmarker) (by simp)
  | case4 l next ls marker? hread howned ih =>
    obtain ⟨parts, hparts⟩ := ih fun k hk => h k (List.mem_cons_of_mem _ hk)
    exact ⟨_, map_eq_ok.2 ⟨parts, hparts, rfl⟩⟩
  | case5 l next ls marker? hread id region rest howned ih =>
    obtain ⟨parts, hparts⟩ := ih fun k hk => h k (List.mem_cons_of_mem _
      (append_of_ownedBlock? howned ▸ List.mem_append_right _ hk))
    exact ⟨_, map_eq_ok.2 ⟨parts, hparts, rfl⟩⟩

theorem segments_append {a : List Line} (h : ∀ l ∈ a, Marker.read l = .ok none)
    (ls : List Line) : segments (a ++ ls) = (segments ls).map (a.map .line ++ ·) := by
  induction a with
  | nil =>
    cases hs : segments ls with
    | error err => simp [hs, Except.map]
    | ok parts => simp [hs, Except.map]
  | cons l a ih =>
    rw [List.cons_append, segments_line (h l List.mem_cons_self) rfl,
      ih fun k hk => h k (List.mem_cons_of_mem _ hk)]
    cases segments ls with
    | error err => rfl
    | ok parts => rfl

theorem read_of_afterWord? {l : Line} (h : afterWord? Marker.word (trim l) = none) :
    Marker.read l = .ok none := by
  rw [Marker.read, h]

theorem read_of_mem_frame : ∀ l ∈ headerLines ++ footerLines, Marker.read l = .ok none := by
  have hword : ∀ l ∈ headerLines ++ footerLines, afterWord? Marker.word (trim l) = none := by
    decide +kernel
  exact fun l hl => read_of_afterWord? (hword l hl)

theorem read_handlerStub {name : List Char} (h : isCallee name = true) :
    Marker.read (handlerStub name) = .ok none := by
  refine read_of_afterWord? ?_
  rw [(isStatement_handlerStub h).tight.trim]
  exact afterWord?_of_head (a := '-') (c := 'f') rfl rfl (by decide)

/-! ## Regions -/

theorem statements_of_indent {indent : List Char} (hindent : indent.all isBlank = true) {σ : Line}
    (h : IsStatement σ) : Lua.statements (indent ++ σ) = [σ] := by
  have := h.statements_eq hindent all_isBlank_nil
  rwa [List.append_nil] at this

namespace Drawing

variable (d : Drawing) {indent : List Char} (hindent : indent.all isBlank = true)

include hindent

/-- The statements inside a block are inert. -/
theorem inert_of_mem_inner : ∀ l ∈ d.inner.map (indent ++ indentStep ++ ·),
    ∀ σ ∈ Lua.statements l, Inert σ := by
  have hinner : (indent ++ indentStep).all isBlank = true := by
    rw [List.all_append, hindent]
    decide
  intro l hl σ hσ
  obtain ⟨τ, hτ, rfl⟩ := List.mem_map.1 hl
  rw [← List.append_nil (indent ++ indentStep ++ τ)] at hσ
  exact (d.inertLine_of_mem_inner τ hτ).inert hinner all_isBlank_nil σ hσ

theorem openAfter_inner (depth : ℕ) :
    openAfter depth ((d.inner.map (indent ++ indentStep ++ ·)).flatMap Lua.statements) =
      some depth := by
  refine openAfter_of_inert fun σ hσ => ?_
  obtain ⟨l, hl, hσ⟩ := List.mem_flatMap.1 hσ
  exact d.inert_of_mem_inner hindent l hl σ hσ

/-- The block of a drawing without its marker is a region, also with lines put in before its end. -/
theorem isLeading_insert {new : List Line} (hnew : Filler new) :
    IsLeading ((indent ++ "UiPush()".toList) ::
      (d.inner.map (indent ++ indentStep ++ ·) ++ new ++ [indent ++ "UiPop()".toList])) := by
  have hopening := statements_of_indent hindent isStatement_opening
  have hclosing := statements_of_indent hindent isStatement_closing
  have hstarts : startsRegion (indent ++ "UiPush()".toList) = true := by
    rw [startsRegion, hopening]
    decide
  refine ⟨[], _, _, rfl, by simp, hstarts, _, _, 1, (List.cons_append ..).symm, ?_, ?_⟩
  · have hopen : openAfter 0 ["UiPush()".toList] = some 1 := by decide
    rw [List.flatMap_cons, hopening, openAfter_append, hopen, Option.bind_some,
      List.flatMap_append, openAfter_append, d.openAfter_inner hindent]
    exact hnew.balanced 1 le_rfl
  · rw [hclosing]
    decide

theorem isLeading_tail : IsLeading (d.lines indent).tail := by
  have := d.isLeading_insert hindent filler_nil
  rwa [List.append_nil] at this

/-- The lines of a drawing can be put in anywhere. -/
theorem filler_lines : Filler (d.lines indent) := by
  have hmarker : Lua.statements (indent ++ Marker.text d.element d.frame.w d.frame.h) = [] := by
    have := d.statements_marker hindent []
    rwa [List.append_nil] at this
  refine ⟨fun l hl => ?_, fun depth hdepth => ?_⟩
  · obtain rfl := Option.some.inj hl
    refine ⟨?_, by rw [startsRegion, hmarker]; rfl⟩
    rw [isBlankText_append, (Marker.tight_text _ _ _).not_isBlankText, Bool.and_false]
  · have hopens : opensBlock "UiPush()".toList = true := by decide
    have hclose : openAfter (depth + 1) ["UiPop()".toList] = some depth := by
      have hcloses : opensBlock "UiPop()".toList = false ∧ closesBlock "UiPop()".toList = true := by
        decide
      rw [openAfter, if_neg (Bool.eq_false_iff.1 hcloses.1), if_pos hcloses.2, if_neg (by omega)]
      rfl
    rw [lines_eq, List.flatMap_cons, hmarker, List.nil_append, List.flatMap_cons,
      statements_of_indent hindent isStatement_opening, List.singleton_append, openAfter,
      if_pos hopens, List.flatMap_append, openAfter_append, d.openAfter_inner hindent,
      Option.bind_some, List.flatMap_singleton,
      statements_of_indent hindent isStatement_closing]
    exact hclose

/-- The block of a drawing as a segment. -/
def segment (indent : List Char) : Segment :=
  .block d.element.id (indent ++ Marker.text d.element d.frame.w d.frame.h) (d.lines indent).tail

theorem read_marker : Marker.read (indent ++ Marker.text d.element d.frame.w d.frame.h) =
    .ok (some (d.frame.marker d.element)) := by
  have := Marker.read_text d.readable d.frame.w d.frame.h d.roundsTo.w_lt d.roundsTo.h_lt hindent
    all_isBlank_nil
  rwa [List.append_nil] at this

theorem segments_lines (ls : List Line) :
    segments (d.lines indent ++ ls) = (segments ls).map (d.segment indent :: ·) := by
  have howned : ownedBlock? (some (d.frame.marker d.element)) ((d.lines indent).tail ++ ls) =
      some (d.element.id, (d.lines indent).tail, ls) :=
    ownedBlock?_eq_some_iff.2
      ⟨rfl, leadingRegion?_append_of_isLeading (d.isLeading_tail hindent) ls⟩
  exact segments_block (d.read_marker hindent) howned

theorem segments_flatMap (ds : List Drawing) (ls : List Line) :
    segments ((ds.flatMap fun d => d.lines indent) ++ ls) =
      (segments ls).map (ds.map (fun d => d.segment indent) ++ ·) := by
  induction ds with
  | nil =>
    rw [List.flatMap_nil, List.nil_append]
    cases segments ls with
    | error err => rfl
    | ok parts => rfl
  | cons d ds ih =>
    rw [List.flatMap_cons, List.append_assoc, d.segments_lines hindent, ih]
    cases segments ls with
    | error err => rfl
    | ok parts => rfl

omit hindent in
/-- The segments of a written script: the lines before the blocks, a block for each drawing, and the
lines behind them. -/
theorem segments_scriptLines (ds : List Drawing) {handlers : List (List Char)}
    (hhandlers : ∀ name ∈ handlers, isCallee name = true) :
    segments (scriptLines ds handlers ++ [[]]) =
      .ok (headerLines.map .line ++ (ds.map (fun d => d.segment (indentStep ++ indentStep)) ++
        (footerLines ++ (handlers.map handlerStub ++ [[]])).map .line)) := by
  have hbehind : ∀ l ∈ footerLines ++ (handlers.map handlerStub ++ [[]]),
      Marker.read l = .ok none := by
    intro l hl
    rcases List.mem_append.1 hl with hl | hl
    · exact read_of_mem_frame l (List.mem_append_right _ hl)
    · rcases List.mem_append.1 hl with hl | hl
      · obtain ⟨name, hname, rfl⟩ := List.mem_map.1 hl
        exact read_handlerStub (hhandlers name hname)
      · rw [List.mem_singleton.1 hl]
        exact read_of_afterWord? (by decide)
  have hlast := segments_append hbehind []
  rw [List.append_nil, segments] at hlast
  have hassoc : scriptLines ds handlers ++ [[]] = headerLines ++
      ((ds.flatMap fun d => d.lines (indentStep ++ indentStep)) ++
        (footerLines ++ (handlers.map handlerStub ++ [[]]))) := by
    simp only [scriptLines, writtenLines, List.append_assoc]
  rw [hassoc, segments_append fun l hl => read_of_mem_frame l (List.mem_append_left _ hl),
    segments_flatMap (by decide), hlast]
  simp [Except.map]

end Drawing

end SceneScript
