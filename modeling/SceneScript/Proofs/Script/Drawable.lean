import SceneScript.Proofs.Script.Drawing
import SceneScript.Proofs.Script.Export

/-!
# Elements that can be drawn

For the block of an element to be written it need not be read back: the id and the name may be
empty, and the type may be one that cannot be created, or none of the known ones, which has no
statements. A drawable element is one whose marker stays on its line, whose numbers are finite, and
whose props are of their kinds.

Its statements do not tell its id, and they tell an empty name like one without letters. So they are
those of a readable element, which differs in nothing else (`Element.Drawable.exists_readable`).

Main statement: the block of a drawable element is its marker, an opening, inert lines and a closing
(`Element.Drawable.exists_statements`, with `Element.block_eq`).
-/

namespace SceneScript

open Lua Text

/-! ## Statements -/

theorem isCreatable_of_mem_shapes : ∀ s ∈ shapes, s.type.isCreatable = true := by
  decide +kernel

namespace Element

/-- What the statements of an element depend on. -/
structure SameStatements (e e' : Element) : Prop where
  type : e'.type = e.type
  w : e'.w = e.w
  h : e'.h = e.h
  resolveProp : ∀ key, e'.resolveProp key = e.resolveProp key
  handlerName? : e'.handlerName? = e.handlerName?

theorem SameStatements.statements_eq {e e' : Element} (h : e.SameStatements e') :
    e'.statements = e.statements := by
  have hrender : ∀ a : Argument, a.render e' = a.render e := by
    intro a
    have hvalue : a.value e' = a.value e := by
      unfold Argument.value
      split
      · rw [h.w]
      · rw [h.h]
      · exact h.resolveProp _
    rw [Argument.render, hvalue, Argument.render]
  have hhandler : Shape.handlerText e' = Shape.handlerText e := by
    rw [Shape.handlerText, h.handlerName?, Shape.handlerText]
  have hnumber : ∀ key, Shape.numberProp e' key = Shape.numberProp e key := fun key => hrender _
  rw [statements, statements, h.type]
  split
  · unfold Shape.build
    split
    · rfl
    · unfold Shape.buildSlider
      simp only [h.resolveProp, hnumber, hhandler]
    · simp only [hrender]
    · simp only [hrender, hhandler]
  · rfl

/-! ## Drawable elements -/

/-- An element whose block can be written, but need not be read back. -/
structure Drawable (e : Element) : Prop where
  /-- The id does not break the marker. -/
  id : '\n' ∉ e.id.toList
  /-- The type does not break the marker. -/
  type : '\n' ∉ e.type.toList
  /-- The place and the size are finite. -/
  x : e.x.Finite
  y : e.y.Finite
  w : e.w.Finite
  h : e.h.Finite
  /-- Stored props are of their kinds. -/
  props : ∀ spec ∈ SceneScript.propsOf e.type, ∀ v, e.storedProp? spec.key = some v →
    spec.kind.Admits v
  /-- A stored variable of a slider is an identifier. -/
  sliderVar : e.type = ElementType.slider.name → ∀ s, e.storedProp? "var" = some (.str s) →
    Lua.isIdentifier s.toList = true
  /-- A stored handler is blank or a callee with blanks around it. -/
  handler : ∀ (k : HandlerKey) (s : String), e.storedProp? k.key = some (.str s) →
    Text.isBlankText s.toList = false → Lua.isCallee (Text.trim s.toList) = true

theorem Readable.drawable {e : Element} (h : e.Readable) : e.Drawable where
  id := (flat_of_not_isBlank h.id_plain).lineFeed
  type := (flat_of_not_isBlank (Marker.isBlank_of_mem_type h)).lineFeed
  x := h.x
  y := h.y
  w := h.w
  h := h.h
  props := h.props
  sliderVar := h.sliderVar
  handler := h.handler

/-- The name that an element is given to be read: its own, or one without letters. -/
def legibleName (name : String) : String := if name.toList = [] then "-" else name

theorem legibleName_ne (name : String) : (legibleName name).toList ≠ [] := by
  unfold legibleName
  split
  · decide
  · assumption

/-- What is made from a name is made from its letters, digits and underscores. -/
theorem filter_legibleName {p : Char → Bool} (h : p '-' = false) (name : String) :
    (legibleName name).toList.filter p = name.toList.filter p := by
  unfold legibleName
  split
  · next hname =>
    rw [hname]
    simp [h]
  · rfl

namespace Drawable

variable {e : Element} (h : e.Drawable)

include h

/-- The statements of a drawable element of a type that can be created are those of a readable
one. -/
theorem exists_readable {s : Shape} (hshape : shapeOf? e.type = some s) :
    ∃ e' : Element, e'.Readable ∧ e.SameStatements e' := by
  obtain ⟨hs, htype⟩ := shapeOf?_eq_some hshape
  let e' : Element := { e with id := "a", name := legibleName e.name }
  have hvariable : sliderVariable (legibleName e.name).toList = sliderVariable e.name.toList := by
    unfold sliderVariable
    rw [filter_legibleName (by decide)]
  have hletters : alphanumerics (legibleName e.name).toList = alphanumerics e.name.toList :=
    filter_legibleName (by decide) e.name
  have hid : "a".toList ≠ [] ∧ ∀ c ∈ "a".toList, isBlank c = false := by decide
  refine ⟨e', ?_, rfl, rfl, rfl, fun key => ?_, ?_⟩
  · exact {
      id_ne := hid.1
      id_plain := hid.2
      name_ne := legibleName_ne e.name
      type := ⟨s.type, htype ▸ ElementType.ofName?_name s.type, isCreatable_of_mem_shapes s hs⟩
      x := h.x
      y := h.y
      w := h.w
      h := h.h
      props := h.props
      sliderVar := h.sliderVar
      handler := h.handler }
  · unfold resolveProp
    simp only [e', storedProp?, hvariable]
  · unfold handlerName?
    simp only [e', HandlerKey.derivedName, hletters]

/-- The statements of a drawable element can be written, and they are inert. -/
theorem exists_statements : ∃ f σs, e.RoundsTo f ∧ e.statements = .ok σs ∧
    ∀ σ ∈ σs, InertLine σ := by
  obtain ⟨x, hx, hxlt⟩ := Num.roundHalfUp_of_finite h.x
  obtain ⟨y, hy, hylt⟩ := Num.roundHalfUp_of_finite h.y
  obtain ⟨w, hw, hwlt⟩ := Num.roundHalfUp_of_finite h.w
  obtain ⟨height, hh, hhlt⟩ := Num.roundHalfUp_of_finite h.h
  have hrounds : e.RoundsTo ⟨x, y, w, height⟩ := ⟨hx, hy, hw, hh, hxlt, hylt, hwlt, hhlt⟩
  cases hshape : shapeOf? e.type with
  | none => exact ⟨_, [], hrounds, by rw [statements, hshape], by simp⟩
  | some s =>
    obtain ⟨e', he', hsame⟩ := h.exists_readable hshape
    obtain ⟨σs, -, -, -, hbuild, -, hinert⟩ := Shape.exists_build he' (hsame.type ▸ hshape)
    refine ⟨_, σs, hrounds, ?_, hinert⟩
    rw [← hsame.statements_eq, statements, hsame.type, hshape]
    exact hbuild

theorem exists_block (indent : List Char) : ∃ block, e.block indent = .ok block := by
  obtain ⟨f, σs, hf, hσs, -⟩ := h.exists_statements
  exact ⟨_, block_eq hf hσs indent⟩

/-- The handler of a drawable element is a callee. -/
theorem isCallee_handlerName {name : List Char} (hname : e.handlerName? = some name) :
    isCallee name = true := by
  cases hshape : shapeOf? e.type with
  | none => simp [handlerName?, hshape] at hname
  | some s =>
    obtain ⟨e', he', hsame⟩ := h.exists_readable hshape
    exact he'.isCallee_handlerName (hsame.handlerName?.trans hname)

end Drawable

end Element

/-! ## Lines of blocks -/

section BlockLines

variable {e : Element} {f : Frame} {σs : List Line} {indent : List Char}

theorem blockLines_eq (e : Element) (f : Frame) (σs : List Line) (indent : List Char) :
    blockLines e f σs indent = (indent ++ Marker.text e f.w f.h) :: (indent ++ "UiPush()".toList) ::
      ((moveText f.x f.y :: σs).map (indent ++ indentStep ++ ·) ++
        [indent ++ "UiPop()".toList]) := rfl

/-- The statements of the lines of a block: an opening, those inside it, and a closing. -/
theorem statements_blockLines (hindent : indent.all isBlank = true) :
    (blockLines e f σs indent).flatMap Lua.statements = "UiPush()".toList ::
      (((moveText f.x f.y :: σs).map (indent ++ indentStep ++ ·)).flatMap Lua.statements ++
        ["UiPop()".toList]) := by
  have hmarker : Lua.statements (indent ++ Marker.text e f.w f.h) = [] := by
    have hrest : ∃ rest, Marker.text e f.w f.h = '-' :: '-' :: rest := by
      rw [Marker.text_eq]
      exact ⟨_, rfl⟩
    obtain ⟨rest, hrest⟩ := hrest
    rw [hrest, statements_comment hindent]
  rw [blockLines_eq, List.flatMap_cons, hmarker, List.nil_append, List.flatMap_cons,
    statements_of_indent hindent isStatement_opening, List.singleton_append, List.flatMap_append,
    List.flatMap_singleton, statements_of_indent hindent isStatement_closing]

/-- What stands inside a block is inert. -/
theorem inert_of_mem_blockLines (hindent : indent.all isBlank = true)
    (hσs : ∀ σ ∈ σs, InertLine σ) :
    ∀ τ ∈ ((moveText f.x f.y :: σs).map (indent ++ indentStep ++ ·)).flatMap Lua.statements,
      Inert τ := by
  have hinner : (indent ++ indentStep).all isBlank = true := by
    rw [List.all_append, hindent]
    decide
  intro τ hτ
  obtain ⟨l, hl, hτ⟩ := List.mem_flatMap.1 hτ
  obtain ⟨σ, hσ, rfl⟩ := List.mem_map.1 hl
  have hline : InertLine σ := by
    rcases List.mem_cons.1 hσ with rfl | hσ
    · exact (inert_moveText _ _).line (isStatement_moveText _ _)
    · exact hσs σ hσ
  rw [← List.append_nil (indent ++ indentStep ++ σ)] at hτ
  exact hline.inert hinner all_isBlank_nil τ hτ

/-- The lines of a block stay lines, if its statements do. -/
theorem Element.Drawable.lineFeed_notMem_of_blockLines (he : e.Drawable) (hindent : '\n' ∉ indent)
    (hσs : ∀ σ ∈ σs, '\n' ∉ σ) : ∀ l ∈ blockLines e f σs indent, '\n' ∉ l := by
  have hmarker : '\n' ∉ Marker.text e f.w f.h := by
    have hname : '\n' ∉ Percent.encode e.name.toList := fun hmem =>
      absurd (Percent.isBlank_of_mem_encode hmem) (by decide)
    have hdigits : ∀ n : ℤ, '\n' ∉ intDigits n := fun n hmem =>
      absurd (Marker.isBlank_of_mem_intDigits hmem) (by decide)
    have hconst : '\n' ∉ Marker.word ∧ '\n' ∉ " id=".toList ∧ '\n' ∉ " name=".toList ∧
        '\n' ∉ " type=".toList ∧ '\n' ∉ " w=".toList ∧ '\n' ∉ " h=".toList := by decide
    obtain ⟨h₁, h₂, h₃, h₄, h₅, h₆⟩ := hconst
    simp only [Marker.text, List.mem_append, not_or]
    exact ⟨⟨⟨⟨⟨⟨⟨⟨⟨⟨h₁, h₂⟩, he.id⟩, h₃⟩, hname⟩, h₄⟩, he.type⟩, h₅⟩, hdigits _⟩, h₆⟩, hdigits _⟩
  have hstep : '\n' ∉ indentStep := by decide
  intro l hl
  simp only [blockLines, List.cons_append, List.mem_cons, List.mem_append, List.mem_map,
    List.not_mem_nil, or_false] at hl
  rcases hl with rfl | rfl | rfl | ⟨σ, hσ, rfl⟩ | rfl
  · simp [hindent, hmarker]
  · simp [hindent]
  · simp [hindent, hstep, (isStatement_moveText f.x f.y).flat.lineFeed]
  · simp [hindent, hstep, hσs σ hσ]
  · simp [hindent]

theorem Element.Drawable.lineFeed_notMem_of_block (he : e.Drawable) {block : List Line}
    (hblock : e.block indent = .ok block) (hindent : '\n' ∉ indent) : ∀ l ∈ block, '\n' ∉ l := by
  obtain ⟨f, σs, hf, hok, hσs⟩ := he.exists_statements
  obtain rfl := Except.ok.inj ((block_eq hf hok indent).symm.trans hblock)
  exact he.lineFeed_notMem_of_blockLines hindent fun σ hσ => (hσs σ hσ).flat.lineFeed

end BlockLines

/-! ## Drawable scenes -/

/-- A scene whose script can be written, but need not be read back. -/
structure Scene.Drawable (s : Scene) : Prop where
  /-- Every element stands under its id. -/
  keys : ∀ entry ∈ s.elements.entries, entry.2.id = entry.1
  /-- The order lists the keys, each once. -/
  order : s.order.Perm s.elements.keys
  /-- Every element is drawable. -/
  elements : ∀ entry ∈ s.elements.entries, entry.2.Drawable

namespace Scene

variable {s : Scene}

theorem Readable.drawable (h : s.Readable) : s.Drawable :=
  ⟨h.keys, h.order, fun entry hentry => (h.elements entry hentry).drawable⟩

/-- The lines of a script with its blocks written anew and blocks for the other elements put in, but
without stubs. -/
def redrawn (s : Scene) (parts : List Segment) : Except NumberError (List Line) := do
  let (ls, placed) ← s.replaceBlocks [] parts
  addBlocks ls (s.orderedElements.filter fun e => !placed.contains e.id)

/-- A script with blocks is patched by stubs behind what is drawn anew. -/
theorem patchSegments_eq_map (s : Scene) (parts : List Segment) :
    s.patchSegments parts = (s.redrawn parts).map fun ls =>
      appendLines ls ((undeclared ls s.handlers).map handlerStub) := by
  rw [patchSegments, redrawn]
  cases s.replaceBlocks [] parts with
  | error err => rfl
  | ok r =>
    change (addBlocks r.1 _ >>= _) = (addBlocks r.1 _).map _
    cases addBlocks r.1 (s.orderedElements.filter fun e => !r.2.contains e.id) with
    | error err => rfl
    | ok ls => exact congrArg Except.ok (appendLines_of_isEmpty _ _)

/-- What a segment can become: a line stays, and a block goes or is that of an element. -/
inductive Becomes (s : Scene) : Segment → List Line → Prop
  | line (l : Line) : Becomes s (.line l) [l]
  | gone (id : String) (marker : Line) (region : List Line) : Becomes s (.block id marker region) []
  | block {id : String} {marker : Line} {region chunk : List Line} {entry : String × Element}
      (hentry : entry ∈ s.elements.entries)
      (hchunk : entry.2.block (indentOf marker) = .ok chunk) :
      Becomes s (.block id marker region) chunk

theorem exists_becomes_of_replaceBlocks {placed placed' : List String} {parts : List Segment}
    {ls : List Line} (h : s.replaceBlocks placed parts = .ok (ls, placed')) :
    ∃ chunks, List.Forall₂ s.Becomes parts chunks ∧ chunks.flatten = ls := by
  induction parts generalizing placed ls with
  | nil =>
    obtain ⟨rfl, -⟩ := Prod.mk.inj (Except.ok.inj h)
    exact ⟨[], .nil, rfl⟩
  | cons part parts ih =>
    cases part with
    | line l =>
      obtain ⟨r, hr, heq⟩ := bind_eq_ok.1 h
      obtain ⟨rfl, rfl⟩ := Prod.mk.inj (Except.ok.inj heq)
      obtain ⟨chunks, hall, hflatten⟩ := ih hr
      exact ⟨[l] :: chunks, .cons (.line l) hall, by rw [List.flatten_cons, hflatten]; rfl⟩
    | block id marker region =>
      rw [replaceBlocks] at h
      split at h
      · next e he hplaced =>
        obtain ⟨block, hblock, h⟩ := bind_eq_ok.1 h
        obtain ⟨r, hr, heq⟩ := bind_eq_ok.1 h
        obtain ⟨rfl, rfl⟩ := Prod.mk.inj (Except.ok.inj heq)
        obtain ⟨chunks, hall, hflatten⟩ := ih hr
        exact ⟨block :: chunks, .cons (.block (Table.mem_of_get? he) hblock) hall,
          by rw [List.flatten_cons, hflatten]⟩
      · obtain ⟨chunks, hall, hflatten⟩ := ih h
        exact ⟨[] :: chunks, .cons (.gone id marker region) hall,
          by rw [List.flatten_cons, hflatten]; rfl⟩

end Scene

/-- New blocks are put in at one place, at an indent. -/
theorem exists_cut_of_addBlocks {ls ls' : List Line} {es : List Element}
    (h : addBlocks ls es = .ok ls') : ∃ front back indent run, front ++ back = ls ∧
      ls' = front ++ run ++ back ∧ blocksOf indent es = .ok run ∧ indent.all isBlank = true ∧
      ((∀ l ∈ ls, '\n' ∉ l) → '\n' ∉ indent) := by
  unfold addBlocks at h
  split at h
  · next hempty =>
    obtain rfl := Except.ok.inj h
    obtain rfl := List.isEmpty_iff.1 hempty
    exact ⟨ls, [], [], [], by simp, by simp, rfl, rfl, by simp⟩
  · split at h
    · next hp =>
      obtain ⟨run, hrun, rfl⟩ := map_eq_ok.1 h
      rw [appendLines]
      split
      · next hlast =>
        exact ⟨ls.dropLast, [[]], [], run, List.dropLast_append_getLast? [] hlast, rfl, hrun, rfl,
          by simp⟩
      · exact ⟨ls, [], [], run, by simp, by simp, hrun, rfl, by simp⟩
    · next p hp =>
      obtain ⟨run, hrun, rfl⟩ := map_eq_ok.1 h
      exact ⟨p.before, p.after, p.indent, run, append_of_insertionPoint? hp, rfl, hrun,
        all_isBlank_of_insertionPoint? hp, lineFeed_notMem_of_insertionPoint? hp⟩

/-- What holds of the lines of each block holds of those of all blocks. -/
theorem forall_mem_of_blocksOf {es : List Element} {indent : List Char} {run : List Line}
    (h : blocksOf indent es = .ok run) {P : Line → Prop}
    (hP : ∀ e ∈ es, ∀ block, e.block indent = .ok block → ∀ l ∈ block, P l) : ∀ l ∈ run, P l := by
  induction es generalizing run with
  | nil =>
    obtain rfl : [] = run := Except.ok.inj h
    simp
  | cons e es ih =>
    obtain ⟨block, rest, hblock, hrest, rfl⟩ := blocksOf_cons_eq_ok h
    exact List.forall_mem_append.2 ⟨hP e List.mem_cons_self block hblock,
      ih hrest fun e' he' => hP e' (List.mem_cons_of_mem _ he')⟩

theorem exists_blocksOf {es : List Element} {indent : List Char}
    (h : ∀ e ∈ es, ∃ block, e.block indent = .ok block) :
    ∃ blocks, blocksOf indent es = .ok blocks := by
  rw [blocksOf, exists_bind_eq_ok]
  obtain ⟨blocks, hblocks⟩ := exists_mapM_eq_ok.2 h
  exact ⟨blocks, hblocks, _, rfl⟩

theorem exists_addBlocks_of_blocks {es : List Element}
    (h : ∀ e ∈ es, ∀ indent, ∃ block, e.block indent = .ok block) (ls : List Line) :
    ∃ ls', addBlocks ls es = .ok ls' := by
  unfold addBlocks
  split
  · exact ⟨ls, rfl⟩
  · split
    · exact exists_map_eq_ok.2 (exists_blocksOf fun e he => h e he [])
    · exact exists_map_eq_ok.2 (exists_blocksOf fun e he => h e he _)

namespace Scene.Drawable

variable {s : Scene} (h : s.Drawable)

include h

theorem drawable_of_mem {e : Element} (he : e ∈ s.orderedElements) : e.Drawable :=
  of_mem_orderedElements h.elements he

theorem isCallee_of_mem_handlers : ∀ name ∈ s.handlers, isCallee name = true := by
  intro name hname
  obtain ⟨e, he, hhandler⟩ := (handlersOf_spec s.orderedElements).1 name hname
  exact (h.drawable_of_mem he).isCallee_handlerName hhandler

theorem exists_redrawn (parts : List Segment) : ∃ ls, s.redrawn parts = .ok ls := by
  obtain ⟨r, hr⟩ :=
    exists_replaceBlocks (fun entry hentry => (h.elements entry hentry).exists_block) [] parts
  have hblocks : ∀ e ∈ s.orderedElements.filter (fun e => !r.2.contains e.id), ∀ indent,
      ∃ block, e.block indent = .ok block :=
    fun e he => (h.drawable_of_mem (List.mem_of_mem_filter he)).exists_block
  obtain ⟨ls, hls⟩ := exists_addBlocks_of_blocks hblocks r.1
  exact ⟨ls, bind_eq_ok.2 ⟨r, hr, hls⟩⟩

theorem lineFeed_notMem_of_becomes {parts : List Segment} {chunks : List (List Line)}
    (hall : List.Forall₂ s.Becomes parts chunks)
    (hparts : ∀ l ∈ parts.flatMap Segment.lines, '\n' ∉ l) : ∀ l ∈ chunks.flatten, '\n' ∉ l := by
  induction hall with
  | nil => simp
  | @cons part chunk parts chunks hbecomes _ ih =>
    rw [List.flatMap_cons, List.forall_mem_append] at hparts
    rw [List.flatten_cons, List.forall_mem_append]
    refine ⟨?_, ih hparts.2⟩
    cases hbecomes with
    | line l => exact hparts.1
    | gone => simp
    | @block id marker region chunk entry hentry hchunk =>
      exact (h.elements entry hentry).lineFeed_notMem_of_block hchunk
        (lineFeed_notMem_indentOf (hparts.1 marker List.mem_cons_self))

theorem lineFeed_notMem_of_redrawn {parts : List Segment} {ls : List Line}
    (hls : s.redrawn parts = .ok ls) (hparts : ∀ l ∈ parts.flatMap Segment.lines, '\n' ∉ l) :
    ∀ l ∈ ls, '\n' ∉ l := by
  obtain ⟨r, hr, hadd⟩ := bind_eq_ok.1 hls
  obtain ⟨chunks, hall, hflatten⟩ := exists_becomes_of_replaceBlocks hr
  have hkept : ∀ l ∈ r.1, '\n' ∉ l := hflatten ▸ h.lineFeed_notMem_of_becomes hall hparts
  obtain ⟨front, back, indent, run, hcut, rfl, hrun, -, hindent⟩ := exists_cut_of_addBlocks hadd
  have hnew : ∀ l ∈ run, '\n' ∉ l := forall_mem_of_blocksOf hrun fun e he block hblock =>
    (h.drawable_of_mem (List.mem_of_mem_filter he)).lineFeed_notMem_of_block hblock (hindent hkept)
  have hrest := List.forall_mem_append.1 (hcut ▸ hkept)
  exact List.forall_mem_append.2 ⟨List.forall_mem_append.2 ⟨hrest.1, hnew⟩, hrest.2⟩

theorem lineFeed_notMem_handlerStub : ∀ l ∈ s.handlers.map handlerStub, '\n' ∉ l := by
  intro l hl
  obtain ⟨name, hname, rfl⟩ := List.mem_map.1 hl
  exact (isStatement_handlerStub (h.isCallee_of_mem_handlers name hname)).flat.lineFeed

/-- The lines of the whole script, but for its stubs. -/
theorem exists_frame :
    ∃ blocks, blocksOf (indentStep ++ indentStep) s.orderedElements = .ok blocks ∧
      ∀ l ∈ headerLines ++ blocks ++ footerLines, '\n' ∉ l := by
  have hexists : ∀ e ∈ s.orderedElements, ∃ block, e.block (indentStep ++ indentStep) = .ok block :=
    fun e he => (h.drawable_of_mem he).exists_block _
  obtain ⟨blocks, hblocks⟩ := exists_blocksOf hexists
  have hframe : ∀ l ∈ headerLines ++ footerLines, '\n' ∉ l := by decide
  have hnew : ∀ l ∈ blocks, '\n' ∉ l := forall_mem_of_blocksOf hblocks fun e he block hblock =>
    (h.drawable_of_mem he).lineFeed_notMem_of_block hblock (by decide)
  rw [List.forall_mem_append] at hframe
  exact ⟨blocks, hblocks,
    List.forall_mem_append.2 ⟨List.forall_mem_append.2 ⟨hframe.1, hnew⟩, hframe.2⟩⟩

/-- A patch fails only where a marker has a size of too many digits. Else it gives what is drawn
anew with stubs of the handlers that this does not declare, or, for a script without blocks, the
whole script. -/
theorem patch_cases (text : List Char) :
    ((∃ l ∈ (LineBreak.ofText text).lines text, ¬ Marker.Legible l) ∧
      ∃ err, s.patch text = .error err) ∨
    (∃ parts ls, segments ((LineBreak.ofText text).lines text) = .ok parts ∧
      parts.any Segment.isBlock = true ∧ s.redrawn parts = .ok ls ∧ (∀ l ∈ ls, '\n' ∉ l) ∧
      s.patch text = .ok (join (LineBreak.ofText text).text
        (appendLines ls ((undeclared ls s.handlers).map handlerStub)))) ∨
    ∃ parts blocks, segments ((LineBreak.ofText text).lines text) = .ok parts ∧
      parts.any Segment.isBlock = false ∧
      blocksOf (indentStep ++ indentStep) s.orderedElements = .ok blocks ∧
      (∀ l ∈ headerLines ++ blocks ++ footerLines, '\n' ∉ l) ∧
      s.patch text = .ok (join (LineBreak.ofText text).text
        (headerLines ++ blocks ++ footerLines ++ s.handlers.map handlerStub ++ [[]])) := by
  cases hparts : segments ((LineBreak.ofText text).lines text) with
  | error err =>
    refine .inl ⟨?_, err, by rw [patch, hparts]; rfl⟩
    by_contra hlegible
    push Not at hlegible
    obtain ⟨parts, hok⟩ := exists_segments _ fun l hl => (hlegible l hl).exists_read
    rw [hparts] at hok
    cases hok
  | ok parts =>
    cases hblock : parts.any Segment.isBlock with
    | true =>
      obtain ⟨ls, hls⟩ := h.exists_redrawn parts
      have hfeed := h.lineFeed_notMem_of_redrawn hls
        (lines_segments hparts ▸ LineBreak.lineFeed_notMem_of_mem_lines)
      refine .inr (.inl ⟨parts, ls, rfl, hblock, hls, hfeed, patch_of_block hparts hblock ?_⟩)
      rw [patchSegments_eq_map, hls]
      rfl
    | false =>
      obtain ⟨blocks, hblocks, hfeed⟩ := h.exists_frame
      refine .inr (.inr ⟨parts, blocks, rfl, hblock, hblocks, hfeed, ?_⟩)
      have hscript : s.script = .ok (join ['\n']
          (headerLines ++ blocks ++ footerLines ++ s.handlers.map handlerStub ++ [[]])) := by
        rw [join_append_singleton_nil (by simp [headerLines]), script, scriptLines, hblocks]
        rfl
      have hall : ∀ l ∈ headerLines ++ blocks ++ footerLines ++ s.handlers.map handlerStub ++ [[]],
          '\n' ∉ l :=
        List.forall_mem_append.2 ⟨List.forall_mem_append.2 ⟨hfeed, h.lineFeed_notMem_handlerStub⟩,
          by simp⟩
      rw [patch_of_not_block hparts hblock, hscript]
      exact congrArg Except.ok (replaceChar_join hall)

end Scene.Drawable

end SceneScript
