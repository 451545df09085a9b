import SceneScript.Proofs.Script.Drawing
import SceneScript.Proofs.Text.Lines

/-!
# Scripts read back

The script of a readable scene says everything about it. The lines before the blocks open one block
and move nowhere, since a script binds no names; the lines after the blocks close it again, and
nothing outside all blocks is read.

Main statement: the candidates of the script of a readable scene are its elements, one for each, in
order, as described (`Scene.Readable.candidatesOf_script`).
-/

namespace SceneScript

open Lua Text ReaderState

/-! ## Quiet lines -/

instance (σ : List Char) : Decidable (Quiet σ) :=
  decidable_of_iff ((opensBlock σ = false ∧ closesBlock σ = false ∧ binding? σ = none) ∧
      moveArguments? σ = none)
    ⟨fun ⟨⟨h₁, h₂, h₃⟩, h₄⟩ => ⟨⟨h₁, h₂, h₃⟩, h₄⟩, fun h => ⟨⟨h.opens, h.closes, h.binds⟩, h.moves⟩⟩

/-- A line that means quiet statements. -/
def QuietLine (l : Line) : Prop :=
  ∃ σs, LineContent.ofLine l = .ok (.statements σs) ∧ ∀ σ ∈ σs, Quiet σ

theorem QuietLine.of_code {l : Line} (h : afterWord? "--".toList (trim l) = none)
    (hquiet : ∀ σ ∈ Lua.statements l, Quiet σ) : QuietLine l :=
  ⟨_, LineContent.ofLine_code h, hquiet⟩

theorem QuietLine.of_comment {l : Line} (hcomment : (afterWord? "--".toList (trim l)).isSome = true)
    (hword : afterWord? Marker.word (trim (trim l)) = none)
    (hmatch : (matchStatement? (trim l)).isSome = false) : QuietLine l := by
  have hread : Marker.read (trim l) = .ok none := by
    rw [Marker.read, hword]
  refine ⟨[], ?_, by simp⟩
  rw [LineContent.ofLine, if_pos hcomment, hread]
  exact congrArg (fun σs => Except.ok (LineContent.statements σs)) (if_neg (by simp [hmatch]))

/-- A line whose statements change nothing is passed over. -/
theorem readLine_of_fixed {bindings : Bindings} {n : ℕ} {r : ReaderState} {l : Line}
    {σs : List (List Char)} (hl : LineContent.ofLine l = .ok (.statements σs))
    (h : ∀ σ ∈ σs, step bindings n r σ = .ok r) : readLine bindings r l n = .ok r := by
  rw [readLine, hl]
  clear hl
  induction σs with
  | nil => rfl
  | cons σ σs ih =>
    have hrest := ih fun τ hτ => h τ (List.mem_cons_of_mem _ hτ)
    change (σ :: σs).foldlM (step bindings n) r = .ok r
    rw [List.foldlM_cons, h σ List.mem_cons_self]
    exact hrest

/-- That a line changes nothing where the reader stands, whatever its number. -/
def ReaderState.Skips (bindings : Bindings) (r : ReaderState) (l : Line) : Prop :=
  ∀ n, readLine bindings r l n = .ok r

theorem readLines_of_skips {bindings : Bindings} {n : ℕ} {r : ReaderState} {ls : List Line}
    (h : ∀ l ∈ ls, r.Skips bindings l) : readLines bindings n r ls = .ok r := by
  induction ls generalizing n with
  | nil => rfl
  | cons l ls ih =>
    rw [readLines_cons_ok (h l List.mem_cons_self n)]
    exact ih fun k hk => h k (List.mem_cons_of_mem _ hk)

/-- A quiet line outside all blocks is passed over. -/
theorem QuietLine.skips {l : Line} (hl : QuietLine l) {bindings : Bindings} {r : ReaderState}
    (h : r.around = []) : r.Skips bindings l := by
  obtain ⟨σs, hl, hquiet⟩ := hl
  refine fun n => readLine_of_fixed hl fun σ hσ => ?_
  rw [step_quiet (hquiet σ hσ), h]
  rfl

/-! ## Handlers and their stubs -/

theorem handlersOf_append_singleton (es : List Element) (e : Element) :
    handlersOf (es ++ [e]) =
      match ElementType.ofName? e.type, e.handlerName? with
      | some t, some name =>
        if t.isInteractive && !name.isEmpty && !(handlersOf es).contains name then
          handlersOf es ++ [name]
        else handlersOf es
      | _, _ => handlersOf es := by
  rw [handlersOf, List.foldl_append]
  rfl

/-- Handlers are those of elements, each once. -/
theorem handlersOf_spec (es : List Element) :
    (∀ name ∈ handlersOf es, ∃ e ∈ es, e.handlerName? = some name) ∧ (handlersOf es).Nodup := by
  induction es using List.reverseRecOn with
  | nil => exact ⟨by simp [handlersOf], by simp [handlersOf]⟩
  | append_singleton es e ih =>
    have hold : ∀ name ∈ handlersOf es, ∃ e' ∈ es ++ [e], e'.handlerName? = some name :=
      fun name hname => by
        obtain ⟨e', he', h⟩ := ih.1 name hname
        exact ⟨e', List.mem_append_left _ he', h⟩
    rw [handlersOf_append_singleton]
    split
    · next t name ht hname =>
      split
      · next hnew =>
        simp only [Bool.and_eq_true, Bool.not_eq_true', List.contains_eq_mem,
          decide_eq_false_iff_not] at hnew
        refine ⟨fun name' hmem => ?_, List.nodup_append.2 ⟨ih.2, by simp, ?_⟩⟩
        · rcases List.mem_append.1 hmem with hmem | hmem
          · exact hold name' hmem
          · rw [List.mem_singleton.1 hmem]
            exact ⟨e, by simp, hname⟩
        · rintro a ha b hb rfl
          exact hnew.2 (List.mem_singleton.1 hb ▸ ha)
      · exact ⟨hold, ih.2⟩
    · exact ⟨hold, ih.2⟩

section Stubs

variable {name : List Char} (h : isCallee name = true)

theorem handlerStub_eq (name : List Char) :
    handlerStub name = "function".toList ++ ' ' :: (name ++ "() end".toList) :=
  List.append_assoc "function ".toList name "() end".toList

include h

theorem isStatement_handlerStub : IsStatement (handlerStub name) := by
  have hname := (isNameChar_of_isCallee h).2
  refine ⟨?_, ?_, ?_⟩
  · exact ((Scans.of_plain (by decide)).append (Shape.scans_statement_of_name hname)).append
      (.of_plain (by decide))
  · exact ⟨head_append (head_append ⟨'f', rfl, by decide⟩ _) _, last_append ⟨'d', rfl, by decide⟩ _⟩
  · have hconst : Flat "function ".toList ∧ Flat "() end".toList := by
      unfold Flat
      decide
    exact (hconst.1.append (Shape.flat_of_name hname)).append hconst.2

theorem quiet_handlerStub : Quiet (handlerStub name) := by
  obtain ⟨hne, hname⟩ := isNameChar_of_isCallee h
  obtain ⟨c, rest, rfl⟩ := List.exists_cons_of_ne_nil hne
  have hc := hname c List.mem_cons_self
  have hhead : (handlerStub (c :: rest)).head? = some 'f' := rfl
  have htake : takeIdentifier? (handlerStub (c :: rest)) =
      some ("function".toList, ' ' :: (c :: rest ++ "() end".toList)) := by
    rw [handlerStub_eq]
    exact takeIdentifier?_append (by decide) (forall_head_cons (by decide))
  refine ⟨⟨isEmptyCall_of_head (afterWord?_of_head rfl hhead (by decide)),
    isEmptyCall_of_head (afterWord?_of_head rfl hhead (by decide)),
    binding?_of_head (Shape.afterLocal?_of_head hhead (by decide))
      (assignment?_of_head htake (trimLeft_space (isBlank_of_isNameChar hc) _)
        (ne_of_isNameChar hc (by decide)).symm)⟩,
    moveArguments?_of_callOf? ?_⟩
  rw [callOf?, afterWord?_of_head (a := 'U') (by rfl) hhead (by decide)]
  rfl

theorem statements_handlerStub : Lua.statements (handlerStub name) = [handlerStub name] := by
  have := (isStatement_handlerStub h).statements_eq all_isBlank_nil all_isBlank_nil
  rwa [List.nil_append, List.append_nil] at this

theorem quietLine_handlerStub : QuietLine (handlerStub name) := by
  have hstatement := isStatement_handlerStub h
  refine .of_code ?_ ?_
  · rw [hstatement.tight.trim, hstatement.not_comment]
  · rw [statements_handlerStub h]
    exact fun σ hσ => List.mem_singleton.1 hσ ▸ quiet_handlerStub h

end Stubs

/-! ## The frame around the blocks -/

theorem quietLine_of_mem_take_headerLines : ∀ l ∈ headerLines.take 4, QuietLine l := by
  have hcode : ∀ l ∈ (headerLines.take 4).drop 1, afterWord? "--".toList (trim l) = none ∧
      ∀ σ ∈ Lua.statements l, Quiet σ := by
    decide +kernel
  intro l hl
  rcases List.mem_cons.1 hl with rfl | hl
  · refine .of_comment ?_ ?_ ?_
    · decide +kernel
    · decide +kernel
    · decide +kernel
  · obtain ⟨hcomment, hquiet⟩ := hcode l hl
    exact .of_code hcomment hquiet

theorem quietLine_of_mem_drop_footerLines : ∀ l ∈ footerLines.drop 1, QuietLine l := by
  have hcode : ∀ l ∈ (footerLines.drop 1).take 2, afterWord? "--".toList (trim l) = none ∧
      ∀ σ ∈ Lua.statements l, Quiet σ := by
    decide +kernel
  intro l hl
  have hsplit : footerLines.drop 1 =
      (footerLines.drop 1).take 2 ++ ["-- Event handler stubs (implement)".toList] := rfl
  rw [hsplit] at hl
  rcases List.mem_append.1 hl with hl | hl
  · obtain ⟨hcomment, hquiet⟩ := hcode l hl
    exact .of_code hcomment hquiet
  · rw [List.mem_singleton.1 hl]
    refine .of_comment ?_ ?_ ?_
    · decide +kernel
    · decide +kernel
    · decide +kernel

/-- A quiet statement without a shape is passed over. -/
theorem step_unrecognized {bindings : Bindings} {n : ℕ} {r : ReaderState} {σ : List Char}
    (h : Quiet σ) (hmatch : matchStatement? σ = none) (hawaiting : r.current.awaiting? = none) :
    step bindings n r σ = .ok r := by
  rw [step_quiet h]
  split
  · rfl
  · rw [enter, hawaiting]
    dsimp only
    rw [recognize, hmatch]

/-- The statements on the line before the blocks. -/
def frameStatements : List (List Char) :=
  ["local x0,y0,x1,y1 = UiSafeMargins()", "UiTranslate(x0,y0)", "UiWindow(x1-x0, y1-y0)"].map
    String.toList

section Header

variable {bindings : Bindings} (hunbound : resolveNumber bindings "x0".toList = none)

include hunbound

/-- Where its names are not bound, the line before the blocks moves nowhere. -/
theorem step_frameStatements {n : ℕ} : ∀ σ ∈ frameStatements,
    step bindings n ⟨Context.start, [Context.start], []⟩ σ =
      .ok ⟨Context.start, [Context.start], []⟩ := by
  have hquiet : ∀ σ ∈ frameStatements, σ = "UiTranslate(x0,y0)".toList ∨
      Quiet σ ∧ (matchStatement? σ).isSome = false := by
    decide +kernel
  intro σ hσ
  rcases hquiet σ hσ with rfl | ⟨hquiet, hmatch⟩
  · have harguments : moveArguments? "UiTranslate(x0,y0)".toList =
        some ["x0".toList, "y0".toList] := by
      decide +kernel
    rw [step, if_neg (by decide +kernel), if_neg (by decide +kernel), harguments]
    simp only [Context.move, hunbound]
    rfl
  · exact step_unrecognized hquiet (by simpa using hmatch) rfl

/-- The lines before the blocks open one block. -/
theorem readLines_headerLines :
    readLines bindings 1 ReaderState.start headerLines =
      .ok ⟨Context.start, [Context.start], []⟩ := by
  obtain ⟨frame, hsplit, hcomment, hstatements⟩ : ∃ frame, headerLines =
      headerLines.take 4 ++ ["    ".toList ++ "UiPush()".toList ++ [], frame] ∧
      afterWord? "--".toList (trim frame) = none ∧ Lua.statements frame = frameStatements := by
    refine ⟨_, rfl, ?_, ?_⟩
    · decide +kernel
    · decide +kernel
  have hopening : readLine bindings ReaderState.start ("    ".toList ++ "UiPush()".toList ++ []) 5 =
      .ok ⟨Context.start, [Context.start], []⟩ :=
    (readLine_of_statement (LineContent.ofLine_statement (by decide) rfl isStatement_opening)).trans
      step_push
  have hframe : readLine bindings ⟨Context.start, [Context.start], []⟩ frame 6 =
      .ok ⟨Context.start, [Context.start], []⟩ :=
    readLine_of_fixed (hstatements ▸ LineContent.ofLine_code hcomment)
      (step_frameStatements hunbound)
  have hfront : ∀ l ∈ headerLines.take 4, ReaderState.start.Skips bindings l :=
    fun l hl => (quietLine_of_mem_take_headerLines l hl).skips rfl
  rw [hsplit, readLines_append_ok (readLines_of_skips hfront)]
  exact (readLines_cons_ok hopening _).trans (readLines_cons_ok hframe [])

end Header

/-! ## The lines of a script -/

/-- Blocks put into a script, with the stubs of some handlers. -/
def writtenLines (blocks : List Line) (handlers : List (List Char)) : List Line :=
  headerLines ++ blocks ++ footerLines ++ handlers.map handlerStub

theorem forall_mem_writtenLines {P : Line → Prop} {blocks : List Line}
    {handlers : List (List Char)} : (∀ l ∈ writtenLines blocks handlers, P l) ↔
      (∀ l ∈ headerLines ++ footerLines, P l) ∧ (∀ l ∈ blocks, P l) ∧
        ∀ name ∈ handlers, P (handlerStub name) := by
  simp only [writtenLines, List.forall_mem_append, List.forall_mem_map]
  tauto

theorem lines_writtenLines {blocks : List Line} {handlers : List (List Char)}
    (hlines : ∀ l ∈ writtenLines blocks handlers, '\n' ∉ l) :
    Text.lines (join ['\n'] (writtenLines blocks handlers) ++ ['\n']) =
      writtenLines blocks handlers ++ [[]] := by
  have hne : writtenLines blocks handlers ≠ [] := by
    simp [writtenLines, headerLines]
  rw [← join_append_singleton_nil hne, lines_join (by simp)]
  exact List.forall_mem_append.2 ⟨hlines, by simp⟩

/-- A script is read as its blocks are, if their lines and the stubs bind not what the line before
the blocks moves by, and the stubs do nothing. -/
theorem candidatesOf_writtenLines {blocks : List Line} {handlers : List (List Char)}
    (hlines : ∀ l ∈ writtenLines blocks handlers, '\n' ∉ l) {bindings : Bindings}
    (hbindings : bindingsOf (writtenLines blocks handlers ++ [[]]) = bindings)
    (hunbound : resolveNumber bindings "x0".toList = none) {found : List Candidate}
    (hblocks : readLines bindings (1 + headerLines.length)
      ⟨Context.start, [Context.start], []⟩ blocks = .ok ⟨Context.start, [Context.start], found⟩)
    (hstubs : ∀ name ∈ handlers,
      ReaderState.Skips bindings ⟨Context.start, [], found⟩ (handlerStub name)) :
    candidatesOf (join ['\n'] (writtenLines blocks handlers) ++ ['\n']) = .ok found.reverse := by
  have hsplit : writtenLines blocks handlers ++ [[]] = headerLines ++ (blocks ++
      "    UiPop()".toList :: (footerLines.drop 1 ++ (handlers.map handlerStub ++ [[]]))) := by
    have hfooter : footerLines = "    UiPop()".toList :: footerLines.drop 1 := rfl
    have hassoc : ∀ {header blocks footer footer' stubs last : List Line} {closing : Line},
        footer = closing :: footer' → header ++ blocks ++ footer ++ stubs ++ last =
          header ++ (blocks ++ closing :: (footer' ++ (stubs ++ last))) := by
      rintro header blocks footer footer' stubs last closing rfl
      simp
    exact hassoc hfooter
  have hpop : readLine bindings ⟨Context.start, [Context.start], found⟩ "    UiPop()".toList
      (1 + headerLines.length + blocks.length) = .ok ⟨Context.start, [], found⟩ := by
    have hindent : "    ".toList.all isBlank = true := by decide
    have hline := LineContent.ofLine_statement hindent all_isBlank_nil isStatement_closing
    exact (readLine_of_statement hline).trans step_pop
  have hrest : ∀ l ∈ footerLines.drop 1 ++ (handlers.map handlerStub ++ [[]]),
      ReaderState.Skips bindings ⟨Context.start, [], found⟩ l := by
    intro l hl
    rcases List.mem_append.1 hl with hl | hl
    · exact (quietLine_of_mem_drop_footerLines l hl).skips rfl
    · rcases List.mem_append.1 hl with hl | hl
      · obtain ⟨name, hname, rfl⟩ := List.mem_map.1 hl
        exact hstubs name hname
      · rw [List.mem_singleton.1 hl]
        exact (QuietLine.of_code rfl (by decide)).skips rfl
  rw [candidatesOf, lines_writtenLines hlines, hbindings, hsplit,
    readLines_append_ok (readLines_headerLines hunbound), readLines_append_ok hblocks,
    readLines_cons_ok hpop, readLines_of_skips hrest]
  rfl

/-- The script of some drawings, with the stubs of some handlers. -/
def Drawing.scriptLines (ds : List Drawing) (handlers : List (List Char)) : List Line :=
  writtenLines (ds.flatMap fun d => d.lines (indentStep ++ indentStep)) handlers

section Lines

variable (ds : List Drawing) {handlers : List (List Char)}
  (hhandlers : ∀ name ∈ handlers, isCallee name = true)

include hhandlers

theorem Drawing.flat_of_mem_scriptLines : ∀ l ∈ scriptLines ds handlers, Flat l := by
  have hframe : ∀ l ∈ headerLines ++ footerLines, Flat l := by
    unfold Flat
    decide +kernel
  have hindent : Flat (indentStep ++ indentStep) := by
    unfold Flat
    decide
  refine forall_mem_writtenLines.2 ⟨hframe, fun l hl => ?_, fun name hname =>
    (isStatement_handlerStub (hhandlers name hname)).flat⟩
  obtain ⟨d, -, hl⟩ := List.mem_flatMap.1 hl
  obtain ⟨t, rfl, -, ht⟩ := d.exists_flat_of_mem_lines l hl
  exact hindent.append ht

/-- A script binds no names. -/
theorem Drawing.bindingsOf_scriptLines (ls : List Line) (hls : ∀ l ∈ ls, l = []) :
    bindingsOf (scriptLines ds handlers ++ ls) = Table.empty := by
  have hframe : ∀ l ∈ headerLines ++ footerLines, ∀ σ ∈ Lua.statements l, binding? σ = none := by
    decide +kernel
  have hnone : ∀ l ∈ scriptLines ds handlers ++ ls, ∀ σ ∈ Lua.statements l, binding? σ = none := by
    refine List.forall_mem_append.2 ⟨forall_mem_writtenLines.2 ⟨hframe, fun l hl => ?_,
      fun name hname => ?_⟩, fun l hl => ?_⟩
    · obtain ⟨d, -, hl⟩ := List.mem_flatMap.1 hl
      exact d.binding?_of_mem_lines (by decide) l hl
    · rw [statements_handlerStub (hhandlers name hname)]
      intro σ hσ
      rw [List.mem_singleton.1 hσ]
      exact (quiet_handlerStub (hhandlers name hname)).binds
    · rw [hls l hl, statements_of_blank rfl]
      simp
  have hempty :
      ((scriptLines ds handlers ++ ls).flatMap Lua.statements).filterMap binding? = [] := by
    rw [List.filterMap_eq_nil_iff]
    intro σ hσ
    obtain ⟨l, hl, hσ⟩ := List.mem_flatMap.1 hσ
    exact hnone l hl σ hσ
  rw [bindingsOf, hempty]
  rfl

/-- The candidates of a script are those of its drawings. -/
theorem Drawing.candidatesOf_scriptLines :
    ∃ cs, candidatesOf (join ['\n'] (scriptLines ds handlers) ++ ['\n']) = .ok cs ∧
      List.Forall₂ ReadAs ds cs := by
  obtain ⟨cs, hcs, hall⟩ := @readLines_flatMap Table.empty (indentStep ++ indentStep) (by decide) ds
    (1 + headerLines.length) [Context.start] []
  have hread := candidatesOf_writtenLines
    (fun l hl => (flat_of_mem_scriptLines ds hhandlers l hl).lineFeed)
    (bindingsOf_scriptLines ds hhandlers [[]] (by simp)) (by decide +kernel) hcs
    fun name hname => (quietLine_handlerStub (hhandlers name hname)).skips rfl
  refine ⟨cs, ?_, hall⟩
  rw [scriptLines, hread, List.append_nil, List.reverse_reverse]

end Lines

/-! ## The script of a scene -/

/-- What a candidate says when it describes an element: its type, its id, its name, its place and
its size in whole numbers, and its described props. -/
structure Element.DescribedBy (e : Element) (c : Candidate) : Prop where
  type : c.type = e.type
  id? : c.id? = some e.id
  name? : c.name? = some e.name
  x : e.x.roundHalfUp.map Num.int = .ok c.x
  y : e.y.roundHalfUp.map Num.int = .ok c.y
  w : e.w.roundHalfUp.map Num.int = .ok c.w
  h : e.h.roundHalfUp.map Num.int = .ok c.h
  props : e.describedProps = .ok c.props.entries

theorem Drawing.ReadAs.describedBy {d : Drawing} {c : Candidate} (h : d.ReadAs c) :
    d.element.DescribedBy c := by
  obtain ⟨line, rfl⟩ := h
  have hround : ∀ {v : Num} {k : ℤ}, v.roundHalfUp = .ok k →
      v.roundHalfUp.map Num.int = .ok (.int k) := fun h => map_eq_ok.2 ⟨_, h, rfl⟩
  exact ⟨rfl, rfl, rfl, hround d.roundsTo.x, hround d.roundsTo.y, hround d.roundsTo.w,
    hround d.roundsTo.h, d.describedProps_eq⟩

namespace Scene

variable {s : Scene}

theorem mem_orderedElements {e : Element} :
    e ∈ s.orderedElements ↔ ∃ key ∈ s.order, s.elements.get? key = some e := List.mem_filterMap

/-- What holds of all elements holds of those in the order. -/
theorem of_mem_orderedElements {P : Element → Prop} (h : ∀ entry ∈ s.elements.entries, P entry.2)
    {e : Element} (he : e ∈ s.orderedElements) : P e := by
  obtain ⟨key, -, hget⟩ := mem_orderedElements.1 he
  exact h _ (Table.mem_of_get? hget)

namespace Readable

variable (h : s.Readable)

include h

theorem id_of_get? {key : String} {e : Element} (he : s.elements.get? key = some e) :
    e.id = key := h.keys _ (Table.mem_of_get? he)

theorem get?_of_mem {e : Element} (he : e ∈ s.orderedElements) :
    s.elements.get? e.id = some e := by
  obtain ⟨key, -, hget⟩ := mem_orderedElements.1 he
  rwa [h.id_of_get? hget]

theorem readable_of_mem {e : Element} (he : e ∈ s.orderedElements) : e.Readable :=
  of_mem_orderedElements h.elements he

/-- The elements of a readable scene have the ids of its order. -/
theorem map_id_orderedElements : s.orderedElements.map Element.id = s.order :=
  map_id_of_keys h.keys h.order

theorem nodup_order : s.order.Nodup := h.order.nodup_iff.2 s.elements.nodup

theorem exists_drawings : ∃ ds : List Drawing, ds.map Drawing.element = s.orderedElements :=
  Drawing.exists_of_forall fun _ => h.readable_of_mem

theorem isCallee_of_mem_handlers : ∀ name ∈ s.handlers, isCallee name = true := by
  intro name hname
  obtain ⟨e, he, hhandler⟩ := (handlersOf_spec s.orderedElements).1 name hname
  exact (h.readable_of_mem he).isCallee_handlerName hhandler

omit h in
/-- The script of a scene is that of its drawings. -/
theorem scriptLines_eq {ds : List Drawing} (hds : ds.map Drawing.element = s.orderedElements) :
    s.scriptLines = .ok (Drawing.scriptLines ds s.handlers) := by
  rw [scriptLines, ← hds, Drawing.blocksOf_eq]
  rfl

/-- The script of a readable scene can be read; its candidates describe the elements, in order. -/
theorem exists_described : ∃ text cs, s.script = .ok text ∧ candidatesOf text = .ok cs ∧
    List.Forall₂ Element.DescribedBy s.orderedElements cs := by
  obtain ⟨ds, hds⟩ := h.exists_drawings
  obtain ⟨cs, hcs, hall⟩ := Drawing.candidatesOf_scriptLines ds h.isCallee_of_mem_handlers
  refine ⟨_, cs, ?_, hcs, ?_⟩
  · rw [script, scriptLines_eq hds]
    rfl
  · rw [← hds, List.forall₂_map_left_iff]
    exact hall.imp fun d c => Drawing.ReadAs.describedBy

/-- The candidates of the script of a readable scene are its elements, one for each, in order, as
described. -/
theorem candidatesOf_script : ∃ text cs, s.script = .ok text ∧ candidatesOf text = .ok cs ∧
    List.Forall₂ Element.DescribedBy s.orderedElements cs ∧
    cs.map Candidate.id? = s.order.map some := by
  obtain ⟨text, cs, htext, hcs, hdescribed⟩ := h.exists_described
  refine ⟨text, cs, htext, hcs, hdescribed, ?_⟩
  rw [← h.map_id_orderedElements, List.map_map]
  exact (map_eq_of_forall₂ (fun e c he => he.id?.symm) hdescribed).symm

end Readable

/-- A slider and a label are read back. -/
theorem candidatesOf_script_slider_label :
    ∃ text cs,
      ((empty.add (Element.ofType .slider "s1" 10 (.double Binary64.oneHalf))).add
        (Element.ofType .text "t2" 0 (.int (-5)))).script = .ok text ∧
      candidatesOf text = .ok cs ∧
      List.Forall₂ Element.DescribedBy
        ((empty.add (Element.ofType .slider "s1" 10 (.double Binary64.oneHalf))).add
          (Element.ofType .text "t2" 0 (.int (-5)))).orderedElements cs ∧
      cs.map Candidate.id? = [some "s1", some "t2"] :=
  Readable.candidatesOf_script ((readable_empty.add (Element.readable_ofType rfl (by decide)
    (by decide) (by decide +kernel) (by decide +kernel)) (by decide)).add
      (Element.readable_ofType rfl (by decide) (by decide) (by decide +kernel) (by decide +kernel))
      (by decide))

end Scene

end SceneScript
