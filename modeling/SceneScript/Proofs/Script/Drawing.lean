import SceneScript.Proofs.Script.Reader

/-!
# Drawings

A drawing is a readable element with all that is written and read of it: its whole numbers, its
statements and the props that they tell. Every readable element has one
(`Drawing.exists_of_readable`), and from then on its block is a list of lines and its candidate a
value, so what is said about scripts below is said about lists of drawings.

Main statements:

* `Drawing.blocksOf_eq`: the blocks of some elements are the lines of their drawings.
* `Drawing.readLines_lines`: those lines are read as one candidate for each drawing, in order.
-/

namespace SceneScript

open Lua Text

/-! ## Statements of a readable element -/

/-- The statements of a readable element can be built, tell its props, and are inert. -/
theorem Shape.exists_build {e : Element} (he : e.Readable) {s : Shape}
    (hshape : shapeOf? e.type = some s) :
    ∃ σs σ call entries, s.build e = .ok σs ∧ s.Tells e σ call entries ∧
      ∀ τ ∈ σs, InertLine τ := by
  obtain ⟨hs, -⟩ := shapeOf?_eq_some hshape
  have hsingle : ∀ {σ : Line}, InertLine σ → ∀ τ ∈ [σ], InertLine τ := by
    intro σ hσ τ hτ
    rw [List.mem_singleton.1 hτ]
    exact hσ
  have hcall : s.form = .call ∨ s.form = .conditional → ∃ σs σ call entries,
      s.build e = .ok σs ∧ s.Tells e σ call entries ∧ ∀ τ ∈ σs, InertLine τ := by
    intro hform
    obtain ⟨σ, call, entries, hbuild, hreads⟩ := build_of_call he hshape hform
    exact ⟨_, _, _, _, hbuild, hreads.toTells,
      hsingle (hreads.quiet.toInert.line hreads.isStatement)⟩
  cases hform : s.form with
  | call => exact hcall (.inl hform)
  | conditional => exact hcall (.inr hform)
  | comment =>
    exact ⟨_, _, _, _, by rw [build, hform], tells_drawLater hs hform e,
      hsingle inertLine_drawLater⟩
  | slider =>
    obtain ⟨v, low, high, handler, call, entries, hbuild, hreads, -, hv, hcallee, -⟩ :=
      build_of_slider he hshape hform
    refine ⟨_, _, _, _, hbuild, hreads.toTells, fun τ hτ => ?_⟩
    rcases List.mem_pair.1 hτ with rfl | rfl
    · exact hreads.quiet.toInert.line hreads.isStatement
    · exact quiet_followUp.toInert.line (isStatement_followUp hv hcallee)

theorem Element.Readable.isCallee_handlerName {e : Element} (he : e.Readable) {name : List Char}
    (h : e.handlerName? = some name) : isCallee name = true := by
  obtain ⟨s, hshape⟩ := he.shape
  cases hk : s.handler? with
  | none => simp [handlerName?, hshape, hk] at h
  | some k =>
    obtain ⟨name', hname', hcallee⟩ := he.handlerName hshape hk
    obtain rfl := Option.some.inj (hname'.symm.trans h)
    exact hcallee

/-- What is told of the props of a readable element is the table of its described props. -/
theorem Element.Readable.exists_describedProps {e : Element} (he : e.Readable) :
    ∃ props : Table Json, e.describedProps = .ok props.entries := by
  obtain ⟨s, hshape⟩ := he.shape
  obtain ⟨-, σ, call, entries, -, htells, -⟩ := Shape.exists_build he hshape
  cases hk : s.handler? with
  | none => exact ⟨_, describedProps_of_handler_none hshape htells.described hk⟩
  | some k =>
    obtain ⟨name, hname, -⟩ := he.handlerName hshape hk
    exact ⟨_, describedProps_of_handler hshape htells.described hk hname⟩

/-! ## Drawings -/

/-- A readable element with what is written and read of it. -/
structure Drawing where
  /-- The element. -/
  element : Element
  /-- Its place and its size. -/
  frame : Frame
  /-- Its statements. -/
  statements : List Line
  /-- Its described props. -/
  props : Table Json
  readable : element.Readable
  roundsTo : element.RoundsTo frame
  statements_eq : element.statements = .ok statements
  describedProps_eq : element.describedProps = .ok props.entries

namespace Drawing

theorem exists_of_readable {e : Element} (he : e.Readable) : ∃ d : Drawing, d.element = e := by
  obtain ⟨f, hf⟩ := he.exists_roundsTo
  obtain ⟨s, hshape⟩ := he.shape
  obtain ⟨σs, -, -, -, hσs, -⟩ := Shape.exists_build he hshape
  obtain ⟨props, hprops⟩ := he.exists_describedProps
  refine ⟨⟨e, f, σs, props, he, hf, ?_, hprops⟩, rfl⟩
  rw [Element.statements, hshape]
  exact hσs

/-- The drawings of some readable elements. -/
theorem exists_of_forall {es : List Element} (h : ∀ e ∈ es, e.Readable) :
    ∃ ds : List Drawing, ds.map element = es := by
  induction es with
  | nil => exact ⟨[], rfl⟩
  | cons e es ih =>
    obtain ⟨d, rfl⟩ := exists_of_readable (h e List.mem_cons_self)
    obtain ⟨ds, rfl⟩ := ih fun e' he' => h e' (List.mem_cons_of_mem _ he')
    exact ⟨d :: ds, rfl⟩

variable (d : Drawing)

/-- The lines of the block of a drawing, at an indent. -/
def lines (indent : List Char) : List Line := blockLines d.element d.frame d.statements indent

/-- What the block of a drawing holds: its move, then its statements. -/
def inner : List Line := moveText d.frame.x d.frame.y :: d.statements

/-- The candidate of a drawing at a place. -/
def candidate (x y : Num) (line : ℤ) : Candidate := d.element.candidate d.frame x y d.props line

theorem lines_eq (indent : List Char) : d.lines indent =
    (indent ++ Marker.text d.element d.frame.w d.frame.h) :: (indent ++ "UiPush()".toList) ::
      (d.inner.map (indent ++ indentStep ++ ·) ++ [indent ++ "UiPop()".toList]) := rfl

theorem block_eq (indent : List Char) : d.element.block indent = .ok (d.lines indent) :=
  Element.block_eq d.roundsTo d.statements_eq indent

/-- The blocks of some elements are the lines of their drawings. -/
theorem blocksOf_eq (indent : List Char) (ds : List Drawing) :
    blocksOf indent (ds.map element) = .ok (ds.flatMap fun d => d.lines indent) := by
  have hblocks : (ds.map element).mapM (fun e => e.block indent) =
      .ok (ds.map fun d => d.lines indent) := by
    rw [mapM_eq_ok_iff, List.forall₂_map_left_iff, List.forall₂_map_right_iff,
      List.forall₂_same]
    exact fun d _ => d.block_eq indent
  rw [blocksOf, hblocks, List.flatMap_def]
  rfl

/-! ## The lines of a drawing -/

theorem inertLine_of_mem_inner : ∀ σ ∈ d.inner, InertLine σ := by
  intro σ hσ
  rcases List.mem_cons.1 hσ with rfl | hσ
  · exact (inert_moveText _ _).line (isStatement_moveText _ _)
  · obtain ⟨s, hshape⟩ := d.readable.shape
    obtain ⟨σs, -, -, -, hbuild, -, hinert⟩ := Shape.exists_build d.readable hshape
    have hstatements : d.element.statements = .ok σs := by
      rw [Element.statements, hshape]
      exact hbuild
    obtain rfl := Except.ok.inj (hstatements.symm.trans d.statements_eq)
    exact hinert σ hσ

/-- Every line of a block is the indent and a flat text, which is not empty. -/
theorem exists_flat_of_mem_lines {indent : List Char} :
    ∀ l ∈ d.lines indent, ∃ t, l = indent ++ t ∧ t ≠ [] ∧ Flat t := by
  have hstep : Flat indentStep := by
    unfold Flat
    decide
  intro l hl
  rw [lines_eq] at hl
  rcases List.mem_cons.1 hl with rfl | hl
  · exact ⟨_, rfl, (Marker.tight_text _ _ _).ne_nil, Marker.flat_text d.readable _ _⟩
  · rcases List.mem_cons.1 hl with rfl | hl
    · exact ⟨_, rfl, isStatement_opening.tight.ne_nil, isStatement_opening.flat⟩
    · rcases List.mem_append.1 hl with hl | hl
      · obtain ⟨σ, hσ, rfl⟩ := List.mem_map.1 hl
        exact ⟨indentStep ++ σ, List.append_assoc .., by simp [indentStep],
          hstep.append (d.inertLine_of_mem_inner σ hσ).flat⟩
      · rw [List.mem_singleton.1 hl]
        exact ⟨_, rfl, isStatement_closing.tight.ne_nil, isStatement_closing.flat⟩

theorem statements_marker {indent : List Char} (hindent : indent.all isBlank = true)
    (back : List Char) :
    Lua.statements (indent ++ Marker.text d.element d.frame.w d.frame.h ++ back) = [] := by
  obtain ⟨rest, hrest⟩ : ∃ rest,
      Marker.text d.element d.frame.w d.frame.h = '-' :: '-' :: rest := by
    rw [Marker.text_eq]
    exact ⟨_, rfl⟩
  rw [hrest, List.append_assoc, List.cons_append, List.cons_append, statements_comment hindent]

/-- The lines of a block bind nothing. -/
theorem binding?_of_mem_lines {indent : List Char} (hindent : indent.all isBlank = true) :
    ∀ l ∈ d.lines indent, ∀ τ ∈ Lua.statements l, binding? τ = none := by
  have hinner : (indent ++ indentStep).all isBlank = true := by
    rw [List.all_append, hindent]
    decide
  have hcall : ∀ {σ : Line}, IsStatement σ → binding? σ = none →
      ∀ τ ∈ Lua.statements (indent ++ σ), binding? τ = none := by
    intro σ hσ hnone τ hτ
    have hline := hσ.statements_eq hindent all_isBlank_nil
    rw [List.append_nil] at hline
    rw [hline, List.mem_singleton] at hτ
    exact hτ ▸ hnone
  intro l hl τ hτ
  rw [lines_eq] at hl
  rcases List.mem_cons.1 hl with rfl | hl
  · have hmarker := d.statements_marker hindent []
    rw [List.append_nil] at hmarker
    simp [hmarker] at hτ
  · rcases List.mem_cons.1 hl with rfl | hl
    · exact hcall isStatement_opening (by decide +kernel) τ hτ
    · rcases List.mem_append.1 hl with hl | hl
      · obtain ⟨σ, hσ, rfl⟩ := List.mem_map.1 hl
        rw [← List.append_nil (indent ++ indentStep ++ σ)] at hτ
        exact ((d.inertLine_of_mem_inner σ hσ).inert hinner all_isBlank_nil τ hτ).binds
      · rw [List.mem_singleton.1 hl] at hτ
        exact hcall isStatement_closing (by decide +kernel) τ hτ

/-! ## Reading drawings -/

/-- The lines of a drawing are read as its candidate, at the place reached so far plus its own. -/
theorem readLines_lines {bindings : Bindings} {n : ℕ} {r : ReaderState} {indent back : List Char}
    (hindent : indent.all isBlank = true) (hback : back.all isBlank = true) :
    ReaderState.readLines bindings n r ((d.lines indent).map (· ++ back)) =
      (r.current.x.add (.int d.frame.x)).bind fun x =>
        (r.current.y.add (.int d.frame.y)).bind fun y =>
          .ok ⟨r.current.outer, r.around, d.candidate x y (n + 3 : ℕ) :: r.found⟩ :=
  ReaderState.readLines_block d.readable d.roundsTo hindent hback d.statements_eq
    d.describedProps_eq

/-- Its last line left away, the reader is inside the block then. -/
theorem exists_of_readLines_dropLast {bindings : Bindings} {n : ℕ} {r r' : ReaderState}
    {indent : List Char} (hindent : indent.all isBlank = true)
    (h : ReaderState.readLines bindings n r (d.lines indent).dropLast = .ok r') :
    ∃ x y, r.current.x.add (.int d.frame.x) = .ok x ∧ r.current.y.add (.int d.frame.y) = .ok y ∧
      r' = ⟨⟨x, y, none, none, none⟩, r.current.outer :: r.around,
        d.candidate x y (n + 3 : ℕ) :: r.found⟩ := by
  have hhead := @ReaderState.readLines_head bindings n r d.element d.readable d.frame d.roundsTo
    d.statements indent [] hindent all_isBlank_nil d.statements_eq d.props d.describedProps_eq
  simp only [List.append_nil, List.map_id'] at hhead
  obtain ⟨x, hx, h⟩ := bind_eq_ok.1 (hhead.symm.trans h)
  obtain ⟨y, hy, h⟩ := bind_eq_ok.1 h
  exact ⟨x, y, hx, hy, (Except.ok.inj h).symm⟩

/-- That a candidate is that of a drawing at its own place, on some line. -/
def ReadAs (c : Candidate) : Prop :=
  ∃ line, c = d.candidate (.int d.frame.x) (.int d.frame.y) line

/-- At the place zero, with nothing waiting, drawings are read as their candidates, in order. -/
theorem readLines_flatMap {bindings : Bindings} {indent : List Char}
    (hindent : indent.all isBlank = true) (ds : List Drawing) (n : ℕ) (around : List Context)
    (found : List Candidate) :
    ∃ cs, ReaderState.readLines bindings n ⟨Context.start, around, found⟩
        (ds.flatMap fun d => d.lines indent) = .ok ⟨Context.start, around, cs.reverse ++ found⟩ ∧
      List.Forall₂ ReadAs ds cs := by
  induction ds generalizing n found with
  | nil => exact ⟨[], rfl, .nil⟩
  | cons d ds ih =>
    have hzero : ∀ k : ℤ, (0 : Num).add (.int k) = .ok (.int k) := fun k =>
      congrArg (fun k => Except.ok (Num.int k)) (zero_add k)
    have hd := @readLines_lines d bindings n ⟨Context.start, around, found⟩ indent [] hindent
      all_isBlank_nil
    rw [show Context.start.x = 0 from rfl, show Context.start.y = 0 from rfl, hzero, hzero] at hd
    simp only [List.append_nil, List.map_id'] at hd
    obtain ⟨cs, hcs, hall⟩ := ih (n + (d.lines indent).length)
      (d.candidate (.int d.frame.x) (.int d.frame.y) (n + 3 : ℕ) :: found)
    refine ⟨d.candidate (.int d.frame.x) (.int d.frame.y) (n + 3 : ℕ) :: cs, ?_,
      .cons ⟨_, rfl⟩ hall⟩
    rw [List.flatMap_cons, ReaderState.readLines_append_ok hd]
    refine hcs.trans ?_
    simp
end Drawing

end SceneScript
