import SceneScript.Proofs.Script.Drawable
import SceneScript.Proofs.Script.Handler

/-!
# Stubs of called handlers

The handlers of a scene are those that its blocks call: a condition names its handler itself, the
statement behind a slider calls that of the slider (`Element.calledHandler?`). They are listed in
the order of their first call, each once (`Scene.Drawable.handlers_eq`).

A line that declares a function still does so with a carriage return behind it
(`declaresFunction_append_return`), so what is declared by some lines is declared by the lines of
the script that they are joined to.

Main statement: a patched script declares every handler that its blocks call. In a script with
blocks a stub is put in exactly for those that are not declared otherwise, and a script without any
gets a stub for each (`Scene.Drawable.exists_stubs_patch`).
-/

namespace SceneScript

open Lua Text

/-! ## Called handlers -/

/-- The handler that some statements call: that of a condition, or that of the statement behind a
slider. -/
def calledHandler? : List (List Char) → Option (List Char)
  | [σ] => (matchStatement? σ).bind fun m => m.2.handler?
  | [σ, τ] => (matchStatement? σ).bind fun m => m.1.followUpHandler? m.2 τ
  | _ => none

/-- The handler that the block of an element calls. -/
def Element.calledHandler? (e : Element) : Option (List Char) :=
  match e.statements with
  | .ok σs => SceneScript.calledHandler? σs
  | .error _ => none

namespace Shape

theorem interactive_of_mem_shapes : ∀ s ∈ shapes, s.handler?.isSome = s.type.isInteractive := by
  decide +kernel

/-- A shape without a condition calls nothing. -/
theorem handlerName?_eq_none {e : Element} {s : Shape} (hshape : shapeOf? e.type = some s)
    (hform : ¬(s.form = .conditional ∨ s.form = .slider)) : e.handlerName? = none := by
  have hsome := (wellFormed_of_mem_shapes s (shapeOf?_eq_some hshape).1).handler
  have hnone : s.handler? = none := by
    rw [not_or] at hform
    rw [← Option.isNone_iff_eq_none, ← Option.not_isSome, hsome]
    simp [hform]
  simp [Element.handlerName?, hshape, hnone]

/-- A statement that tells an element names the handler of the element, if it is a condition. -/
theorem Tells.handler?_eq {s : Shape} {e : Element} {σ : List Char} {call : Call}
    {props : List (String × Json)} (h : s.Tells e σ call props) (hform : s.form ≠ .slider) :
    call.handler? = if s.form = .conditional then e.handlerName? else none := by
  obtain ⟨w?, h?, hextract⟩ := h.extract Table.empty
  rw [← handler?_extract Table.empty call hform, hextract]

end Shape

namespace Element

/-- The statements of a readable element call its handler. -/
theorem Readable.calledHandler?_eq {e : Element} (he : e.Readable) :
    e.calledHandler? = e.handlerName? := by
  obtain ⟨s, hshape⟩ := he.shape
  obtain ⟨hs, -⟩ := shapeOf?_eq_some hshape
  have hstatements : e.statements = s.build e := by rw [statements, hshape]
  have hsingle : ∀ {σ : List Char} {call : Call} {props : List (String × Json)},
      s.build e = .ok [σ] → s.Tells e σ call props → s.form ≠ .slider →
        e.calledHandler? = e.handlerName? := by
    intro σ call props hbuild htells hform
    have hcalled : e.calledHandler? = call.handler? := by
      rw [calledHandler?, hstatements, hbuild]
      change (matchStatement? σ).bind _ = _
      rw [htells.recognized]
      rfl
    rw [hcalled, htells.handler?_eq hform]
    split
    · rfl
    · next hconditional =>
      exact (Shape.handlerName?_eq_none hshape (by simp [hconditional, hform])).symm
  cases hform : s.form with
  | call =>
    obtain ⟨σ, call, props, hbuild, hreads⟩ := Shape.build_of_call he hshape (.inl hform)
    exact hsingle hbuild hreads.toTells (by simp [hform])
  | conditional =>
    obtain ⟨σ, call, props, hbuild, hreads⟩ := Shape.build_of_call he hshape (.inr hform)
    exact hsingle hbuild hreads.toTells (by simp [hform])
  | comment =>
    exact hsingle (by rw [Shape.build, hform]) (Shape.tells_drawLater hs hform e) (by simp [hform])
  | slider =>
    obtain ⟨v, low, high, handler, call, props, hbuild, hreads, htargets, hv, hcallee, hname⟩ :=
      Shape.build_of_slider he hshape hform
    rw [calledHandler?, hstatements, hbuild, hname]
    change (matchStatement? _).bind _ = _
    rw [hreads.recognized]
    exact Shape.followUpHandler?_followUp hv hcallee hform htargets

variable {e : Element} (h : e.Drawable)

include h

/-- So do those of a drawable element. -/
theorem Drawable.calledHandler?_eq : e.calledHandler? = e.handlerName? := by
  cases hshape : shapeOf? e.type with
  | none => simp [calledHandler?, statements, handlerName?, hshape, SceneScript.calledHandler?]
  | some s =>
    obtain ⟨e', he', hsame⟩ := h.exists_readable hshape
    rw [← hsame.handlerName?, ← he'.calledHandler?_eq, calledHandler?, calledHandler?,
      hsame.statements_eq]

/-- Only interactive elements call a handler, and its name is not empty. -/
theorem Drawable.interactive {name : List Char} (hname : e.handlerName? = some name) :
    ∃ t, ElementType.ofName? e.type = some t ∧ t.isInteractive = true ∧ name.isEmpty = false := by
  have hcallee := h.isCallee_handlerName hname
  cases hshape : shapeOf? e.type with
  | none => simp [handlerName?, hshape] at hname
  | some s =>
    obtain ⟨hs, htype⟩ := shapeOf?_eq_some hshape
    have hsome : s.handler?.isSome = true := by
      by_contra hnone
      rw [Option.not_isSome_iff_eq_none] at hnone
      simp [handlerName?, hshape, hnone] at hname
    refine ⟨s.type, htype ▸ ElementType.ofName?_name s.type,
      Shape.interactive_of_mem_shapes s hs ▸ hsome, ?_⟩
    rw [List.isEmpty_eq_false_iff]
    exact (isNameChar_of_isCallee hcallee).1

end Element

theorem eraseDups_append_singleton {α : Type} [BEq α] [LawfulBEq α] (l : List α) (a : α) :
    (l ++ [a]).eraseDups = if l.contains a then l.eraseDups else l.eraseDups ++ [a] := by
  have hsingle : [a].eraseDups = [a] := by
    rw [List.eraseDups_cons]
    rfl
  have hnew : [a].removeAll l = if l.contains a then [] else [a] := by
    by_cases h : a ∈ l <;> simp [List.removeAll, h]
  rw [List.eraseDups_append, hnew]
  split
  · exact List.append_nil _
  · rw [hsingle]

/-- The handlers of drawable elements are those that their blocks call, in the order of the first
call, each once. -/
theorem handlersOf_eq {es : List Element} (hes : ∀ e ∈ es, e.Drawable) :
    handlersOf es = (es.filterMap Element.calledHandler?).eraseDups := by
  induction es using List.reverseRecOn with
  | nil => rfl
  | append_singleton es e ih =>
    rw [List.forall_mem_append] at hes
    have he : e.Drawable := hes.2 e (List.mem_singleton_self e)
    have hcalled := he.calledHandler?_eq
    rw [handlersOf_append_singleton, List.filterMap_append]
    cases hname : e.handlerName? with
    | none => simp [hcalled, hname, ih hes.1]
    | some name =>
      obtain ⟨t, ht, hinteractive, hne⟩ := he.interactive hname
      have hmem : (handlersOf es).contains name =
          (es.filterMap Element.calledHandler?).contains name := by
        rw [ih hes.1, Bool.eq_iff_iff, List.contains_iff_mem, List.contains_iff_mem,
          List.mem_eraseDups]
      rw [List.filterMap_cons_some (hcalled.trans hname), List.filterMap_nil,
        eraseDups_append_singleton, ← hmem, ← ih hes.1]
      simp only [ht, hinteractive, hne, Bool.not_false, Bool.true_and]
      cases (handlersOf es).contains name <;> rfl

theorem Scene.Drawable.handlers_eq {s : Scene} (h : s.Drawable) :
    s.handlers = (s.orderedElements.filterMap Element.calledHandler?).eraseDups :=
  handlersOf_eq fun _ he => h.drawable_of_mem he

/-! ## Declarations with a carriage return -/

namespace Text

variable {s t rest : List Char}

theorem afterWord?_append_of_some {word : List Char} (h : afterWord? word s = some rest)
    (t : List Char) : afterWord? word (s ++ t) = some (rest ++ t) := by
  rw [append_of_afterWord? h, List.append_assoc, afterWord?_append]

theorem trimLeft_append_of_ne_nil (h : trimLeft s ≠ []) (t : List Char) :
    trimLeft (s ++ t) = trimLeft s ++ t := by
  have hempty : (s.dropWhile isBlank).isEmpty = false := List.isEmpty_eq_false_iff.2 h
  rw [trimLeft, List.dropWhile_append, hempty]
  rfl

theorem afterBlanks?_append_of_some (h : afterBlanks? s = some rest) (hne : rest ≠ [])
    (t : List Char) : afterBlanks? (s ++ t) = some (rest ++ t) := by
  cases s with
  | nil => cases h
  | cons c s =>
    rw [afterBlanks?] at h
    split at h
    · next hc =>
      obtain rfl := Option.some.inj h
      rw [List.cons_append, afterBlanks?, if_pos hc, trimLeft_append_of_ne_nil hne]
    · cases h

theorem ne_nil_of_afterWord? {word : List Char} (hword : word ≠ [])
    (h : afterWord? word s = some rest) : s ≠ [] := by
  rw [append_of_afterWord? h]
  exact List.append_ne_nil_of_left_ne_nil hword rest

end Text

section Return

variable {name s : List Char} (hname : name ≠ [])

include hname

theorem ne_nil_of_startsDeclaration (h : startsDeclaration name s = true) : s ≠ [] := by
  rintro rfl
  cases name with
  | nil => exact hname rfl
  | cons c name => simp [startsDeclaration, afterWord?] at h

theorem startsDeclaration_append_return (h : startsDeclaration name s = true) :
    startsDeclaration name (s ++ ['\r']) = true := by
  have hfunction : "function".toList ≠ [] := by decide
  have hequals : ['='] ≠ [] := by decide
  have hparenthesis : ['('] ≠ [] := by decide
  unfold startsDeclaration at h ⊢
  simp only [Option.bind_eq_bind, Bool.or_eq_true] at h ⊢
  refine h.imp (fun h => ?_) fun h => ?_
  · obtain ⟨rest, h⟩ := Option.isSome_iff_exists.1 h
    obtain ⟨r₁, h₁, h⟩ := Option.bind_eq_some_iff.1 h
    obtain ⟨r₂, h₂, h⟩ := Option.bind_eq_some_iff.1 h
    obtain ⟨r₃, h₃, h₄⟩ := Option.bind_eq_some_iff.1 h
    rw [afterWord?_append_of_some h₁, Option.bind_some,
      afterBlanks?_append_of_some h₂ (ne_nil_of_afterWord? hname h₃), Option.bind_some,
      afterWord?_append_of_some h₃, Option.bind_some,
      trimLeft_append_of_ne_nil (ne_nil_of_afterWord? hparenthesis h₄), afterChar?,
      afterWord?_append_of_some h₄]
    rfl
  · obtain ⟨rest, h⟩ := Option.isSome_iff_exists.1 h
    obtain ⟨r₁, h₁, h⟩ := Option.bind_eq_some_iff.1 h
    obtain ⟨r₂, h₂, h⟩ := Option.bind_eq_some_iff.1 h
    obtain ⟨r₃, h₃, h⟩ := Option.bind_eq_some_iff.1 h
    have hend : atWordEnd r₃ = true := by
      by_contra hnot
      rw [if_neg hnot] at h
      cases h
    have hend' : atWordEnd (r₃ ++ ['\r']) = true := by
      cases r₃ with
      | nil => decide
      | cons c r₃ => exact hend
    rw [afterWord?_append_of_some h₁, Option.bind_some,
      trimLeft_append_of_ne_nil (ne_nil_of_afterWord? hequals h₂), afterChar?,
      afterWord?_append_of_some h₂, Option.bind_some,
      trimLeft_append_of_ne_nil (ne_nil_of_afterWord? hfunction h₃),
      afterWord?_append_of_some h₃, Option.bind_some, if_pos hend']
    rfl

/-- A carriage return behind a declaration leaves it one. -/
theorem declaresFunction_append_return {l : Line} (h : declaresFunction name l = true) :
    declaresFunction name (l ++ ['\r']) = true := by
  unfold declaresFunction at h ⊢
  simp only [Bool.or_eq_true] at h ⊢
  rcases h with h | h
  · rw [trimLeft_append_of_ne_nil (ne_nil_of_startsDeclaration hname h)]
    exact .inl (startsDeclaration_append_return hname h)
  · cases hlocal : afterLocal? (trimLeft l) with
    | none => simp [hlocal] at h
    | some rest =>
      rw [hlocal, Option.map_some, Option.getD_some] at h
      obtain ⟨r, hword, hblanks⟩ := Option.bind_eq_some_iff.1 hlocal
      have hlocal' : afterLocal? (trimLeft l ++ ['\r']) = some (rest ++ ['\r']) := by
        rw [afterLocal?, afterWord?_append_of_some hword, Option.bind_some,
          afterBlanks?_append_of_some hblanks (ne_nil_of_startsDeclaration hname h)]
      rw [trimLeft_append_of_ne_nil (ne_nil_of_afterWord? (by decide) hword), hlocal']
      exact .inr (startsDeclaration_append_return hname h)

/-- What is declared by some lines is declared by the lines that they are joined to. -/
theorem exists_declares_join {ls : List Line} (hls : ∀ l ∈ ls, '\n' ∉ l) (b : LineBreak)
    (h : ∃ l ∈ ls, declaresFunction name l = true) :
    ∃ l ∈ Text.lines (join b.text ls), declaresFunction name l = true := by
  obtain ⟨l, hl, hdeclares⟩ := h
  have hne : ls ≠ [] := List.ne_nil_of_mem hl
  cases b with
  | lf => exact ⟨l, (lines_join hne hls).symm ▸ hl, hdeclares⟩
  | crlf =>
    obtain ⟨front, last, rfl⟩ := (List.eq_nil_or_concat' ls).resolve_left hne
    rw [List.forall_mem_append] at hls
    rw [LineBreak.text, lines_join_crlf (hls.2 last (List.mem_singleton_self last)) hls.1]
    rcases List.mem_append.1 hl with hl | hl
    · exact ⟨l ++ ['\r'], List.mem_append_left _ (List.mem_map_of_mem hl),
        declaresFunction_append_return hname hdeclares⟩
    · exact ⟨l, List.mem_append_right _ hl, hdeclares⟩

end Return

/-! ## Stubs -/

namespace Scene

/-- What the stubs behind some lines are for: the handlers that no line declares, each once, in the
order of their first call. -/
structure StubsBehind (s : Scene) (ls : List Line) (stubs : List (List Char)) : Prop where
  mem_iff : ∀ name, name ∈ stubs ↔
    name ∈ s.handlers ∧ ∀ l ∈ ls, declaresFunction name l = false
  nodup : stubs.Nodup
  sublist : stubs.Sublist s.handlers

variable {s : Scene}

theorem stubsBehind_undeclared (s : Scene) (ls : List Line) :
    s.StubsBehind ls (undeclared ls s.handlers) := by
  refine ⟨fun name => ?_, (handlersOf_spec s.orderedElements).2.filter _, List.filter_sublist⟩
  simp [undeclared, List.mem_filter]

namespace Drawable

variable (h : s.Drawable)

include h

/-- With stubs behind them, some lines declare every handler. -/
theorem exists_declares_appendLines {ls : List Line} {stubs : List (List Char)}
    (hstubs : ∀ name ∈ s.handlers, name ∈ stubs ∨ ∃ l ∈ ls, declaresFunction name l = true)
    {name : List Char} (hname : name ∈ s.handlers) :
    ∃ l ∈ appendLines ls (stubs.map handlerStub), declaresFunction name l = true := by
  rcases hstubs name hname with hmem | ⟨l, hl, hdeclares⟩
  · exact ⟨handlerStub name, mem_appendLines.2 (.inr (List.mem_map_of_mem hmem)),
      declaresFunction_handlerStub (h.isCallee_of_mem_handlers name hname)⟩
  · exact ⟨l, mem_appendLines.2 (.inl hl), hdeclares⟩

/-- A patched script declares every handler, in whatever way its lines are joined. -/
theorem exists_declares_patch {ls : List Line} {stubs : List (List Char)}
    (hls : ∀ l ∈ ls, '\n' ∉ l) (hsubset : ∀ name ∈ stubs, name ∈ s.handlers)
    (hstubs : ∀ name ∈ s.handlers, name ∈ stubs ∨ ∃ l ∈ ls, declaresFunction name l = true)
    (b : LineBreak) {name : List Char} (hname : name ∈ s.handlers) :
    ∃ l ∈ Text.lines (join b.text (appendLines ls (stubs.map handlerStub))),
      declaresFunction name l = true := by
  have hall : ∀ l ∈ appendLines ls (stubs.map handlerStub), '\n' ∉ l := by
    intro l hl
    rcases mem_appendLines.1 hl with hl | hl
    · exact hls l hl
    · obtain ⟨name, hname, rfl⟩ := List.mem_map.1 hl
      exact h.lineFeed_notMem_handlerStub _ (List.mem_map_of_mem (hsubset name hname))
  exact exists_declares_join (isNameChar_of_isCallee (h.isCallee_of_mem_handlers name hname)).1
    hall b (h.exists_declares_appendLines hstubs hname)

/-- The handlers of a drawable scene are those that its blocks call, in the order of the first call.
Unless a marker has a size of too many digits, a patched script declares them all. If the script has
blocks, the stubs behind what is drawn anew are for the handlers that this does not declare, and if
it has none, the whole script has one for each. -/
theorem exists_stubs_patch (text : List Char) :
    s.handlers = (s.orderedElements.filterMap Element.calledHandler?).eraseDups ∧
    (((∃ l ∈ (LineBreak.ofText text).lines text, ¬ Marker.Legible l) ∧
        ∃ err, s.patch text = .error err) ∨
      ∃ parts code ls stubs, segments ((LineBreak.ofText text).lines text) = .ok parts ∧
        s.patch text = .ok code ∧
        (∀ name ∈ s.handlers, ∃ l ∈ Text.lines code, declaresFunction name l = true) ∧
        code = join (LineBreak.ofText text).text (appendLines ls (stubs.map handlerStub)) ∧
        if parts.any Segment.isBlock = true then s.redrawn parts = .ok ls ∧ s.StubsBehind ls stubs
        else stubs = s.handlers ∧ ∃ blocks,
          blocksOf (indentStep ++ indentStep) s.orderedElements = .ok blocks ∧
          ls = headerLines ++ blocks ++ footerLines ++ [[]]) := by
  refine ⟨h.handlers_eq, ?_⟩
  rcases h.patch_cases text with hillegible |
    ⟨parts, ls, hparts, hblock, hls, hfeed, hpatch⟩ |
    ⟨parts, blocks, hparts, hblock, hblocks, hfeed, hpatch⟩
  · exact .inl hillegible
  · have hbehind := stubsBehind_undeclared s ls
    have hstubs : ∀ name ∈ s.handlers,
        name ∈ undeclared ls s.handlers ∨ ∃ l ∈ ls, declaresFunction name l = true := by
      intro name hname
      by_cases hdeclared : ∃ l ∈ ls, declaresFunction name l = true
      · exact .inr hdeclared
      · exact .inl ((hbehind.mem_iff name).2 ⟨hname, by simpa using hdeclared⟩)
    refine .inr ⟨parts, _, ls, undeclared ls s.handlers, hparts, hpatch, fun name => ?_, rfl, ?_⟩
    · exact h.exists_declares_patch hfeed (fun name hname => hbehind.sublist.subset hname) hstubs _
    · rw [if_pos hblock]
      exact ⟨hls, hbehind⟩
  · have hlines : headerLines ++ blocks ++ footerLines ++ s.handlers.map handlerStub ++ [[]] =
        appendLines (headerLines ++ blocks ++ footerLines ++ [[]]) (s.handlers.map handlerStub) :=
      (appendLines_nil _ _).symm
    rw [hlines] at hpatch
    refine .inr ⟨parts, _, _, s.handlers, hparts, hpatch, fun name => ?_, rfl, ?_⟩
    · exact h.exists_declares_patch (List.forall_mem_append.2 ⟨hfeed, by simp⟩)
        (fun name hname => hname) (fun name hname => .inl hname) _
    · rw [if_neg (by simp [hblock])]
      exact ⟨rfl, blocks, hblocks, rfl⟩

end Drawable

/-- A scene of one button. -/
def oneButton : Scene := empty.add (Element.ofType .button "b" 0 0)

theorem readable_oneButton : oneButton.Readable :=
  readable_empty.add (Element.readable_ofType rfl (by decide) (by decide) (by decide +kernel)
    (by decide +kernel)) (by decide)

/-- The button is put into the script of one block. -/
theorem exists_stubs_patch_loneBlock : oneButton.Drawable ∧
    oneButton.handlers =
      (oneButton.orderedElements.filterMap Element.calledHandler?).eraseDups ∧
    (((∃ l ∈ (LineBreak.ofText loneBlock).lines loneBlock, ¬ Marker.Legible l) ∧
        ∃ err, oneButton.patch loneBlock = .error err) ∨
      ∃ parts code ls stubs, segments ((LineBreak.ofText loneBlock).lines loneBlock) = .ok parts ∧
        oneButton.patch loneBlock = .ok code ∧
        (∀ name ∈ oneButton.handlers, ∃ l ∈ Text.lines code, declaresFunction name l = true) ∧
        code = join (LineBreak.ofText loneBlock).text (appendLines ls (stubs.map handlerStub)) ∧
        if parts.any Segment.isBlock = true then
          oneButton.redrawn parts = .ok ls ∧ oneButton.StubsBehind ls stubs
        else stubs = oneButton.handlers ∧ ∃ blocks,
          blocksOf (indentStep ++ indentStep) oneButton.orderedElements = .ok blocks ∧
          ls = headerLines ++ blocks ++ footerLines ++ [[]]) :=
  ⟨readable_oneButton.drawable, Drawable.exists_stubs_patch readable_oneButton.drawable loneBlock⟩

example : oneButton.handlers = ["onbuttonbPress".toList] := by
  decide +kernel

end Scene

end SceneScript
