import SceneScript.Proofs.Lua.Prefix
import SceneScript.Proofs.Scene.Traceable
import SceneScript.Proofs.Script.Drawable
import SceneScript.Proofs.Script.RoundTrip
import SceneScript.Proofs.Script.Taken

/-!
# Scripts that tell their elements

The handler of a traceable element may be any text without semicolons and line breaks, and so it may
open a string or a comment that goes on to the end of the line. But what stands in front of it is a
statement of its own: the condition on a call of the shape, the condition that a slider is done, or
the word of a function. Whatever follows, the line has one statement, which starts with that one
(`Lua.IsStatement.exists_statements_append`), and this is enough for the reader: a condition on a
call is recognised, the condition behind a slider is no statement of a shape, and a function does
nothing outside all blocks.

Main statement: the candidates of the script of a traceable scene have the ids of its elements, one
for each, in order (`Scene.Traceable.tellsIds`).
-/

namespace SceneScript

open Lua Text ReaderState

/-! ## Lines that start with a statement -/

/-- A line that starts with a statement, and has no semicolon behind it, means one statement, which
starts with the one in front. -/
theorem ReaderState.LineContent.exists_ofLine_append {σ : List Char} (h : IsStatement σ) {c : Char}
    (hhead : σ.head? = some c) (hc : '-' ≠ c) {front : List Char}
    (hfront : front.all isBlank = true) {t : List Char} (ht : ';' ∉ t) :
    ∃ u, ofLine (front ++ σ ++ t) = .ok (.statements [σ ++ u]) ∧ trim (σ ++ u) = σ ++ u := by
  obtain ⟨u, hu, htrim⟩ := h.exists_statements_append hfront ht
  have hcode : afterWord? "--".toList (trim (front ++ σ ++ t)) = none := by
    rw [List.append_assoc, trim_blank_append hfront, h.tight.trim_append]
    refine afterWord?_of_head (a := '-') (c := c) rfl ?_ hc
    rw [List.head?_append, hhead]
    rfl
  exact ⟨u, by rw [ofLine_code hcode, hu], htrim⟩

/-- A line that means quiet statements binds nothing. -/
theorem QuietLine.binding? {l : Line} (h : QuietLine l) :
    ∀ τ ∈ Lua.statements l, binding? τ = none := by
  obtain ⟨σs, hl, hquiet⟩ := h
  unfold LineContent.ofLine at hl
  dsimp only at hl
  split at hl
  · next hcomment =>
    obtain ⟨rest, hrest⟩ := Option.isSome_iff_exists.1 hcomment
    obtain htrim : trim l = '-' :: '-' :: rest := append_of_afterWord? hrest
    have hnone : Lua.statements l = [] := by
      rw [← statements_trim, htrim]
      exact statements_comment all_isBlank_nil rest
    simp [hnone]
  · obtain rfl := LineContent.statements.inj (Except.ok.inj hl)
    exact fun τ hτ => (hquiet τ hτ).binds

/-! ## Conditions on a call -/

namespace Shape

variable {s : Shape} (hs : s ∈ shapes) {tokens : List (List Char)}
  (htokens : ∀ t ∈ tokens, IsArgument t)

theorem condition_append (s : Shape) (tokens : List (List Char)) (u : List Char) :
    "if ".toList ++ s.call tokens ++ u = "if ".toList ++ (s.function.toList ++ '(' ::
      (join ", ".toList tokens ++ ')' :: u)) := by
  rw [List.append_assoc, call_eq]

include hs

theorem quiet_condition (u : List Char) : Quiet ("if ".toList ++ s.call tokens ++ u) := by
  obtain ⟨f, hf⟩ := List.head?_eq_some_iff.1 (head_call hs (join ", ".toList tokens ++ ')' :: u))
  rw [condition_append, hf]
  exact quiet_if (by decide) (by decide) f

include htokens

theorem isStatement_condition : IsStatement ("if ".toList ++ s.call tokens) := by
  have hcall := isStatement_call hs htokens
  have hif : Flat "if ".toList := by
    unfold Flat
    decide
  exact ⟨(Scans.of_plain (by decide)).append hcall.scans,
    ⟨head_append ⟨'i', rfl, by decide⟩ _, last_append hcall.tight.last _⟩, hif.append hcall.flat⟩

/-- A condition on a call is recognised by the call, whatever follows. -/
theorem exists_matchStatement?_condition (hform : s.form = .conditional) {u : List Char}
    (htrim : trim ("if ".toList ++ s.call tokens ++ u) = "if ".toList ++ s.call tokens ++ u) :
    ∃ call, matchStatement? ("if ".toList ++ s.call tokens ++ u) = some (s, call) := by
  rw [condition_append] at htrim ⊢
  exact ⟨_, matchStatement?_of_opening hs (by rw [hform]; decide) htrim
    (isDrawLater_of_head (c := 'i') rfl (by decide))
    (fun s' hs' => by rw [opening?_conditional hs hs', hform]) (callArguments?_join htokens u)⟩

end Shape

/-- A condition that starts with no name of a function is no statement of a shape. -/
theorem matchStatement?_if {c : Char} (hb : isBlank c = false) (hu : 'U' ≠ c) (hcomma : ',' ≠ c)
    {t : List Char} (htrim : trim ("if ".toList ++ c :: t) = "if ".toList ++ c :: t) :
    matchStatement? ("if ".toList ++ c :: t) = none := by
  have hhead : ("if ".toList ++ c :: t).head? = some 'i' := rfl
  refine List.findSome?_eq_none_iff.2 fun s hs => ?_
  have hinitial := (wellFormed_of_mem_shapes s hs).initial
  have hopening : s.opening? ("if ".toList ++ c :: t) = none := by
    unfold Shape.opening?
    cases s.form with
    | call =>
      have hcall := afterWord?_of_head hinitial hhead (by decide)
      dsimp only
      rw [callOf?, hcall]
      rfl
    | conditional =>
      have hif : afterWord? "if".toList ("if ".toList ++ c :: t) = some (' ' :: c :: t) :=
        afterWord?_append "if".toList _
      have hcall : afterWord? s.function.toList (c :: t) = none :=
        afterWord?_of_head hinitial rfl hu
      rw [hif]
      simp only [Option.bind_eq_bind, Option.bind_some, afterBlanks?_space hb]
      rw [callOf?, hcall]
      rfl
    | slider =>
      have htake : takeIdentifier? ("if".toList ++ ' ' :: c :: t) =
          some ("if".toList, ' ' :: c :: t) :=
        takeIdentifier?_append (by decide) (forall_head_cons (by decide))
      have hchar : afterChar? ',' (trimLeft (' ' :: c :: t)) = none := by
        rw [trimLeft_space hb, afterChar?, afterWord?, if_neg hcomma]
      have hslider : Shape.sliderOpening? s.function ("if ".toList ++ c :: t) = none := by
        change Shape.sliderOpening? s.function ("if".toList ++ ' ' :: c :: t) = none
        rw [Shape.sliderOpening?, htake]
        simp [hchar]
      dsimp only
      rw [optionalLocal, Shape.afterLocal?_of_head hhead (by decide), hslider]
      rfl
    | comment => rfl
  rw [Shape.recognize?, htrim, isDrawLater_of_head hhead (by decide), hopening]
  simp

/-! ## Lines that find one candidate -/

/-- Lines that are read as one candidate inside a block, with the id that the block carries. -/
structure FindsOne (σs : List Line) : Prop where
  lineFeed : ∀ σ ∈ σs, '\n' ∉ σ
  quiet : ∀ {front : List Char}, front.all isBlank = true → ∀ σ ∈ σs, QuietLine (front ++ σ)
  reads : ∀ (bindings : Bindings) (n : ℕ) {r : ReaderState} {front : List Char} {m : Marker},
    front.all isBlank = true → r.around.isEmpty = false → r.current.carried? = some m →
      r.current.awaiting? = none →
        ∃ inside c, readLines bindings n r (σs.map (front ++ ·)) =
          .ok ⟨inside, r.around, c :: r.found⟩ ∧ c.id? = m.id?

/-- A line with one statement that is recognised makes a candidate with the id that is carried. -/
theorem ReaderState.exists_readLine_of_match (bindings : Bindings) (n : ℕ) {r : ReaderState}
    {l : Line} {σ : List Char} {s : Shape} {call : Call} {m : Marker}
    (hl : LineContent.ofLine l = .ok (.statements [σ])) (hquiet : Quiet σ)
    (hmatch : matchStatement? σ = some (s, call)) (haround : r.around.isEmpty = false)
    (hcarried : r.current.carried? = some m) (hawaiting : r.current.awaiting? = none) :
    ∃ c : Candidate, readLine bindings r l n = .ok ⟨{ r.current with
        carried? := none
        awaiting? := if s.form = .slider then some (s, call) else none },
      r.around, c :: r.found⟩ ∧ c.id? = m.id? := by
  obtain ⟨w, h, props, hcall⟩ := Candidate.exists_ofCall_eq_mk bindings s call (some m)
    r.current.x r.current.y n
  refine ⟨Candidate.ofCall bindings s call (some m) r.current.x r.current.y n, ?_,
    by rw [hcall]; rfl⟩
  rw [readLine_of_statement hl, step_quiet hquiet, haround]
  simp only [Bool.false_eq_true, if_false, enter, recognize, hmatch, hcarried, hawaiting]

theorem FindsOne.of_match {σ : Line} (hσ : '\n' ∉ σ) {s : Shape}
    (h : ∀ {front : List Char}, front.all isBlank = true → ∃ τ call,
      LineContent.ofLine (front ++ σ) = .ok (.statements [τ]) ∧ Quiet τ ∧
        matchStatement? τ = some (s, call)) : FindsOne [σ] where
  lineFeed := by simpa using hσ
  quiet hfront σ' hσ' := by
    obtain rfl := List.mem_singleton.1 hσ'
    obtain ⟨τ, -, hl, hquiet, -⟩ := h hfront
    exact ⟨[τ], hl, by simpa using hquiet⟩
  reads bindings n r front m hfront haround hcarried hawaiting := by
    obtain ⟨τ, call, hl, hquiet, hmatch⟩ := h hfront
    obtain ⟨c, hc, hid⟩ := exists_readLine_of_match bindings n hl hquiet hmatch haround
      hcarried hawaiting
    exact ⟨_, c, readLines_cons_ok hc [], hid⟩

/-- A condition on a call finds it once, whatever the handler. -/
theorem Shape.findsOne_conditional {s : Shape} (hs : s ∈ shapes) {tokens : List (List Char)}
    (htokens : ∀ t ∈ tokens, IsArgument t) (hform : s.form = .conditional) {handler : List Char}
    (hh : Unbroken handler) : FindsOne [s.conditionalText tokens handler] := by
  have hcondition := isStatement_condition hs htokens
  have hbehind : Unbroken (" then ".toList ++ handler ++ "() end".toList) :=
    (Unbroken.append ⟨by decide, by decide⟩ hh).append ⟨by decide, by decide⟩
  have htext : ∀ front : List Char, front ++ s.conditionalText tokens handler =
      front ++ ("if ".toList ++ s.call tokens) ++
        (" then ".toList ++ handler ++ "() end".toList) := by
    have hassoc : ∀ front first call middle handler last : List Char,
        front ++ (first ++ call ++ middle ++ handler ++ last) =
          front ++ (first ++ call) ++ (middle ++ handler ++ last) := by
      intros
      simp only [List.append_assoc]
    exact fun front => hassoc front _ _ _ _ _
  refine .of_match (s := s) ?_ fun {front} hfront => ?_
  · rw [← List.nil_append (s.conditionalText tokens handler), htext]
    exact List.not_mem_append hcondition.flat.lineFeed hbehind.lineFeed
  · rw [htext]
    obtain ⟨u, hu, htrim⟩ := LineContent.exists_ofLine_append hcondition (c := 'i') rfl (by decide)
      hfront hbehind.semicolon
    obtain ⟨call, hcall⟩ := exists_matchStatement?_condition hs htokens hform htrim
    exact ⟨_, call, hu, quiet_condition hs u, hcall⟩

/-! ## Statements of traceable elements -/

theorem Shape.exists_build_comment (e : Element) {s : Shape} (hs : s ∈ shapes)
    (hform : s.form = .comment) : ∃ σs, s.build e = .ok σs ∧ FindsOne σs := by
  refine ⟨[Shape.drawLaterComment], by rw [Shape.build, hform],
    .of_match (s := s) (by decide) fun {front} hfront => ?_⟩
  have hline := LineContent.ofLine_drawLater hfront all_isBlank_nil
  rw [List.append_nil] at hline
  exact ⟨_, _, hline, quiet_drawLater, (Shape.tells_drawLater hs hform e).recognized⟩

theorem Shape.isHandlerKey_of_mem_arguments :
    ∀ s ∈ shapes, ∀ a ∈ s.arguments, ∀ p ∈ a.written?, Element.isHandlerKey p.1 = false := by
  decide +kernel

namespace Element

theorem resolveProp_withoutHandlers (e : Element) {key : String} (h : isHandlerKey key = false) :
    e.withoutHandlers.resolveProp key = e.resolveProp key := by
  unfold resolveProp
  rw [e.storedProp?_withoutHandlers h]
  rfl

/-- An argument that is no handler is written without handlers as with them. -/
theorem render_withoutHandlers (e : Element) {a : Argument}
    (ha : ∀ p ∈ a.written?, isHandlerKey p.1 = false) :
    a.render e.withoutHandlers = a.render e := by
  have hvalue : a.value e.withoutHandlers = a.value e := by
    unfold Argument.written? at ha
    unfold Argument.value
    split
    · rfl
    · rfl
    · next key hsource =>
      rw [hsource] at ha
      exact e.resolveProp_withoutHandlers (ha _ rfl)
  rw [Argument.render, hvalue, Argument.render]

theorem mapM_render_withoutHandlers (e : Element) {s : Shape} (hs : s ∈ shapes) :
    s.arguments.mapM (fun a => a.render e.withoutHandlers) =
      s.arguments.mapM fun a => a.render e :=
  mapM_congr_of_forall₂ (List.forall₂_same.2 fun a ha =>
    e.render_withoutHandlers (Shape.isHandlerKey_of_mem_arguments s hs a ha))

namespace Traceable

variable {e : Element} (h : e.Traceable)

include h

/-- The handler that a traceable element calls stays one statement on its line. -/
theorem unbroken_handlerName {name : List Char} (hname : e.handlerName? = some name) :
    Unbroken name := by
  have hderived : ∀ k : HandlerKey, Unbroken (k.derivedName e.name.toList) := fun k =>
    unbroken_of_isCallee (isCallee_of_isIdentifier (isIdentifier_derivedName k e.name.toList))
  simp only [handlerName?, Option.bind_eq_bind, Option.bind_eq_some_iff] at hname
  obtain ⟨s, -, k, -, hname⟩ := hname
  split at hname
  · next t ht =>
    have hstored : e.storedProp? k.key = some (.str t) := by
      rw [storedProp?, ht]
    obtain rfl := Option.some.inj hname
    split
    · exact hderived k
    · exact h.handler k t hstored
  · obtain rfl := Option.some.inj hname
    exact hderived k

theorem unbroken_handlerText : Unbroken (Shape.handlerText e) := by
  unfold Shape.handlerText
  cases hname : e.handlerName? with
  | none => exact ⟨by decide, by decide⟩
  | some name => exact h.unbroken_handlerName hname

variable {s : Shape} (hshape : shapeOf? e.type = some s)

include hshape

theorem exists_build_conditional (hform : s.form = .conditional) :
    ∃ σs, s.build e = .ok σs ∧ FindsOne σs := by
  obtain ⟨hs, htype⟩ := shapeOf?_eq_some hshape
  obtain ⟨tokens, -, htokens, hall, -⟩ := Shape.addArguments_of_readable h.readable
    (htype ▸ (wellFormed_of_mem_shapes s hs).supported)
  have hliterals : ∀ t ∈ s.literals.map String.toList ++ tokens, IsArgument t :=
    List.forall_mem_append.2 ⟨Shape.isArgument_of_mem_literals hs, hall⟩
  refine ⟨_, ?_, Shape.findsOne_conditional hs hliterals hform h.unbroken_handlerText⟩
  rw [Shape.build, hform]
  dsimp only
  rw [← e.mapM_render_withoutHandlers hs, htokens]
  rfl

/-- The statements without a handler are those of a readable element. -/
theorem exists_build_call (hform : s.form = .call) : ∃ σs, s.build e = .ok σs ∧ FindsOne σs := by
  obtain ⟨hs, -⟩ := shapeOf?_eq_some hshape
  obtain ⟨σ, call, props, hbuild, hreads⟩ :=
    Shape.build_of_call h.readable (e := e.withoutHandlers) hshape (.inl hform)
  refine ⟨[σ], ?_, .of_match (s := s) hreads.isStatement.flat.lineFeed fun {front} hfront => ?_⟩
  · rw [← hbuild, Shape.build, Shape.build, hform]
    dsimp only
    rw [e.mapM_render_withoutHandlers hs]
  · have hline := LineContent.ofLine_statement hfront all_isBlank_nil hreads.isStatement
    rw [List.append_nil] at hline
    exact ⟨σ, call, hline, hreads.quiet, hreads.recognized⟩

end Traceable

end Element

/-! ## Sliders -/

theorem Shape.quiet_done (u : List Char) : Quiet ("if __done then".toList ++ u) :=
  quiet_if (c := '_') (by decide) (by decide) ("_done then".toList ++ u)

/-- The condition behind a slider gives its candidate a handler, or does nothing, whatever follows
it. -/
theorem ReaderState.exists_readLine_followUp (bindings : Bindings) (n : ℕ) {r : ReaderState}
    {l : Line} {u : List Char}
    (hl : LineContent.ofLine l = .ok (.statements ["if __done then".toList ++ u]))
    (htrim : trim ("if __done then".toList ++ u) = "if __done then".toList ++ u)
    (haround : r.around.isEmpty = false) {s : Shape} {call : Call}
    (hawaiting : r.current.awaiting? = some (s, call)) {c : Candidate} {found : List Candidate}
    (hfound : r.found = c :: found) :
    ∃ inside c', readLine bindings r l n = .ok ⟨inside, r.around, c' :: found⟩ ∧
      c'.id? = c.id? := by
  have hnone : matchStatement? ("if __done then".toList ++ u) = none :=
    matchStatement?_if (c := '_') (by decide) (by decide) (by decide) htrim
  rw [readLine_of_statement hl, step_quiet (Shape.quiet_done u), haround]
  simp only [Bool.false_eq_true, if_false, enter, hawaiting]
  cases s.followUpHandler? call ("if __done then".toList ++ u) with
  | none =>
    rw [recognize, hnone]
    exact ⟨_, c, by rw [hfound], rfl⟩
  | some handler =>
    obtain ⟨props, heq⟩ := c.exists_withHandler_eq s (some handler)
    refine ⟨{ r.current with awaiting? := none }, c.withHandler s (some handler), ?_, by rw [heq]⟩
    simp only [giveHandler, hfound]

namespace Shape

theorem isStatement_done : IsStatement "if __done then".toList := by
  refine ⟨.of_plain (by decide), ⟨⟨'i', rfl, by decide⟩, ⟨'n', rfl, by decide⟩⟩, ?_⟩
  unfold Flat
  decide

section FollowUp

variable {v handler : List Char} (hv : Unbroken v) (hh : Unbroken handler)

include hv hh

/-- The condition behind a slider, and what follows it. -/
theorem exists_followUpText_eq : ∃ t, Unbroken t ∧
    ∀ front : List Char,
      front ++ followUpText v handler = front ++ "if __done then".toList ++ t := by
  have hspace : Unbroken " ".toList := ⟨by decide, by decide⟩
  have hopen : Unbroken "(".toList := ⟨by decide, by decide⟩
  have hend : Unbroken ") end".toList := ⟨by decide, by decide⟩
  have hword : "if __done then ".toList = "if __done then".toList ++ " ".toList := by decide
  refine ⟨" ".toList ++ handler ++ "(".toList ++ v ++ ") end".toList,
    (((hspace.append hh).append hopen).append hv).append hend, fun front => ?_⟩
  have hassoc : ∀ front done space handler left v right : List Char,
      front ++ (done ++ space ++ handler ++ left ++ v ++ right) =
        front ++ done ++ (space ++ handler ++ left ++ v ++ right) := by
    intros
    simp only [List.append_assoc]
  unfold followUpText
  rw [hword]
  exact hassoc front _ _ handler _ v _

theorem lineFeed_notMem_followUpText : '\n' ∉ followUpText v handler := by
  obtain ⟨t, ht, htext⟩ := exists_followUpText_eq hv hh
  rw [← List.nil_append (followUpText v handler), htext]
  exact List.not_mem_append isStatement_done.flat.lineFeed ht.lineFeed

theorem exists_ofLine_followUp {front : List Char} (hfront : front.all isBlank = true) :
    ∃ u, LineContent.ofLine (front ++ followUpText v handler) =
      .ok (.statements ["if __done then".toList ++ u]) ∧
        trim ("if __done then".toList ++ u) = "if __done then".toList ++ u := by
  obtain ⟨t, ht, htext⟩ := exists_followUpText_eq hv hh
  rw [htext]
  exact LineContent.exists_ofLine_append isStatement_done (c := 'i') rfl (by decide) hfront
    ht.semicolon

end FollowUp

/-- The two statements of a slider find it once, whatever the handler. -/
theorem findsOne_slider {s : Shape} (hs : s ∈ shapes) (hform : s.form = .slider)
    {v low high handler : List Char} (hv : isIdentifier v = true) (hlow : IsArgument low)
    (hhigh : IsArgument high) (hh : Unbroken handler) :
    FindsOne [s.sliderText v low high, followUpText v handler] := by
  have hname := unbroken_of_isCallee (isCallee_of_isIdentifier hv)
  have hfirst := isStatement_slider hs hv hlow hhigh
  have hfirstLine : ∀ {front : List Char}, front.all isBlank = true →
      LineContent.ofLine (front ++ s.sliderText v low high) =
        .ok (.statements [s.sliderText v low high]) := by
    intro front hfront
    have hline := LineContent.ofLine_statement hfront all_isBlank_nil hfirst
    rwa [List.append_nil] at hline
  refine ⟨fun σ hσ => ?_, fun {front} hfront σ hσ => ?_, ?_⟩
  · rcases List.mem_pair.1 hσ with rfl | rfl
    · exact hfirst.flat.lineFeed
    · exact lineFeed_notMem_followUpText hname hh
  · rcases List.mem_pair.1 hσ with rfl | rfl
    · exact ⟨_, hfirstLine hfront, by simpa using quiet_slider hv⟩
    · obtain ⟨u, hu, -⟩ := exists_ofLine_followUp hname hh hfront
      refine ⟨_, hu, fun τ hτ => ?_⟩
      rw [List.mem_singleton.1 hτ]
      exact quiet_done u
  · intro bindings n r front m hfront haround hcarried hawaiting
    obtain ⟨c, hc, hid⟩ := exists_readLine_of_match bindings n
      (hfirstLine hfront) (quiet_slider hv) (matchStatement?_slider hs hv hlow hhigh hform)
      haround hcarried hawaiting
    rw [if_pos hform] at hc
    obtain ⟨u, hu, htrim⟩ := exists_ofLine_followUp hname hh hfront
    obtain ⟨inside, c', hc', hid'⟩ := exists_readLine_followUp bindings (n + 1)
      (r := ⟨{ r.current with carried? := none, awaiting? := _ }, r.around, c :: r.found⟩)
      hu htrim haround rfl rfl
    exact ⟨inside, c', (readLines_cons_ok hc _).trans (readLines_cons_ok hc' []), hid'.trans hid⟩

end Shape

theorem Element.Traceable.exists_build_slider {e : Element} (h : e.Traceable) {s : Shape}
    (hshape : shapeOf? e.type = some s) (hform : s.form = .slider) :
    ∃ σs, s.build e = .ok σs ∧ FindsOne σs := by
  obtain ⟨hs, htype⟩ := shapeOf?_eq_some hshape
  have hslider : e.withoutHandlers.type = ElementType.slider.name := by
    change e.type = _
    rw [← htype, (wellFormed_of_mem_shapes s hs).slider hform]
  obtain ⟨v, hvar, hv⟩ := h.readable.resolveVar hslider
  obtain ⟨low, -, hlow, -, hlowArgument, -⟩ :=
    Shape.reads_bound h.readable (e := e.withoutHandlers) hshape hform (.inl rfl)
  obtain ⟨high, -, hhigh, -, hhighArgument, -⟩ :=
    Shape.reads_bound h.readable (e := e.withoutHandlers) hshape hform (.inr rfl)
  refine ⟨_, ?_, Shape.findsOne_slider hs hform hv hlowArgument hhighArgument
    h.unbroken_handlerText⟩
  rw [e.resolveProp_withoutHandlers (by decide)] at hvar
  rw [Shape.numberProp, e.render_withoutHandlers (by decide)] at hlow hhigh
  rw [Shape.build, hform]
  dsimp only
  rw [Shape.buildSlider, hvar, Shape.numberProp, hlow, Shape.numberProp, hhigh]
  exact congrArg (fun σ => Except.ok [σ, Shape.followUpText v.toList (Shape.handlerText e)])
    (Shape.sliderText_eq s v.toList low high)

/-- The statements of a traceable element can be built, and find it once. -/
theorem Element.Traceable.exists_statements {e : Element} (h : e.Traceable) :
    ∃ σs, e.statements = .ok σs ∧ FindsOne σs := by
  obtain ⟨s, hshape⟩ := h.readable.shape
  have hshape : shapeOf? e.type = some s := hshape
  rw [Element.statements, hshape]
  cases hform : s.form with
  | call => exact h.exists_build_call hshape hform
  | conditional => exact h.exists_build_conditional hshape hform
  | slider => exact h.exists_build_slider hshape hform
  | comment => exact Shape.exists_build_comment e (shapeOf?_eq_some hshape).1 hform

/-! ## Blocks in a row -/

/-- Lines that bind nothing, and are read in a block at the place zero as candidates of some ids. -/
structure Finds (ls : List Line) (ids : List String) : Prop where
  lineFeed : ∀ l ∈ ls, '\n' ∉ l
  binds : ∀ l ∈ ls, ∀ τ ∈ Lua.statements l, binding? τ = none
  reads : ∀ (bindings : Bindings) (n : ℕ) (around : List Context) (found : List Candidate),
    ∃ cs : List Candidate, readLines bindings n ⟨Context.start, around, found⟩ ls =
      .ok ⟨Context.start, around, cs.reverse ++ found⟩ ∧ cs.map Candidate.id? = ids.map some

namespace Finds

theorem nil : Finds [] [] :=
  ⟨by simp, by simp, fun _ _ _ _ => ⟨[], rfl, rfl⟩⟩

theorem append {ls ls' : List Line} {ids ids' : List String} (h : Finds ls ids)
    (h' : Finds ls' ids') : Finds (ls ++ ls') (ids ++ ids') where
  lineFeed := List.forall_mem_append.2 ⟨h.lineFeed, h'.lineFeed⟩
  binds := List.forall_mem_append.2 ⟨h.binds, h'.binds⟩
  reads bindings n around found := by
    obtain ⟨cs, hcs, hids⟩ := h.reads bindings n around found
    obtain ⟨cs', hcs', hids'⟩ := h'.reads bindings (n + ls.length) around (cs.reverse ++ found)
    refine ⟨cs ++ cs', ?_, by rw [List.map_append, List.map_append, hids, hids']⟩
    rw [readLines_append_ok hcs, hcs', List.reverse_append, List.append_assoc]

end Finds

section Blocks

variable {indent : List Char} (hindent : indent.all isBlank = true) (hline : '\n' ∉ indent)

include hindent hline

/-- The block of a traceable element can be written, and finds it once. -/
theorem Element.Traceable.exists_block {e : Element} (h : e.Traceable) :
    ∃ block, e.block indent = .ok block ∧ Finds block [e.id] := by
  obtain ⟨f, hf⟩ := h.readable.exists_roundsTo
  obtain ⟨σs, hσs, hfinds⟩ := h.exists_statements
  have hinner : (indent ++ indentStep).all isBlank = true := by
    rw [List.all_append, hindent]
    decide
  have hframe : e.RoundsTo f := ⟨hf.x, hf.y, hf.w, hf.h, hf.x_lt, hf.y_lt, hf.w_lt, hf.h_lt⟩
  refine ⟨_, Element.block_eq hframe hσs indent,
    h.readable.drawable.lineFeed_notMem_of_blockLines hline hfinds.lineFeed, fun l hl τ hτ => ?_,
    fun bindings n around found => ?_⟩
  · have hmem : τ ∈ (blockLines e f σs indent).flatMap Lua.statements :=
      List.mem_flatMap.2 ⟨l, hl, hτ⟩
    rw [statements_blockLines hindent, List.mem_cons, List.mem_append, List.mem_singleton] at hmem
    rcases hmem with rfl | hmem | rfl
    · decide +kernel
    · obtain ⟨l', hl', hτ⟩ := List.mem_flatMap.1 hmem
      obtain ⟨σ, hσ, rfl⟩ := List.mem_map.1 hl'
      rcases List.mem_cons.1 hσ with rfl | hσ
      · rw [statements_of_indent hinner (isStatement_moveText f.x f.y), List.mem_singleton] at hτ
        exact hτ ▸ (inert_moveText f.x f.y).binds
      · exact (hfinds.quiet hinner σ hσ).binding? τ hτ
    · decide +kernel
  · choose inside c hinside hid using fun x y : Num =>
      hfinds.reads bindings (n + 3)
        (r := ⟨⟨x, y, none, some (f.marker e), none⟩, Context.start :: around, found⟩)
        hinner rfl rfl rfl
    have hblock : readLines bindings n ⟨Context.start, around, found⟩
        ((blockLines e f σs indent).map (· ++ [])) = _ :=
      readLines_block_of_inside h.readable hf hindent all_isBlank_nil fun x y => by
        simp only [List.append_nil]
        exact hinside x y
    have hzero : ∀ k : ℤ, (0 : Num).add (.int k) = .ok (.int k) := fun k =>
      congrArg (fun k => Except.ok (Num.int k)) (zero_add k)
    have hplace : Context.start.x = 0 ∧ Context.start.y = 0 := ⟨rfl, rfl⟩
    rw [hplace.1, hplace.2, hzero, hzero] at hblock
    simp only [List.append_nil, List.map_id'] at hblock
    exact ⟨[c (.int f.x) (.int f.y)], hblock, by rw [List.map_singleton, hid]; rfl⟩

theorem exists_finds_blocksOf {es : List Element} (hes : ∀ e ∈ es, e.Traceable) :
    ∃ blocks, blocksOf indent es = .ok blocks ∧ Finds blocks (es.map Element.id) := by
  induction es with
  | nil => exact ⟨[], rfl, .nil⟩
  | cons e es ih =>
    obtain ⟨block, hblock, hfinds⟩ := (hes e List.mem_cons_self).exists_block hindent hline
    obtain ⟨blocks, hblocks, hfindsAll⟩ := ih fun e' he' => hes e' (List.mem_cons_of_mem e he')
    refine ⟨block ++ blocks, ?_, hfinds.append hfindsAll⟩
    obtain ⟨parts, hparts, hflatten⟩ := bind_eq_ok.1 hblocks
    obtain rfl := Except.ok.inj hflatten
    rw [blocksOf, List.mapM_cons, hblock, hparts]
    rfl

end Blocks

/-! ## Stubs -/

section Stubs

variable {name : List Char} (h : Unbroken name)

theorem isStatement_function : IsStatement "function".toList := by
  refine ⟨.of_plain (by decide), ⟨⟨'f', rfl, by decide⟩, ⟨'n', rfl, by decide⟩⟩, ?_⟩
  unfold Flat
  decide

include h

theorem exists_handlerStub_eq :
    ∃ t, Unbroken t ∧ handlerStub name = [] ++ "function".toList ++ t :=
  ⟨[' '] ++ (name ++ "() end".toList),
    Unbroken.append ⟨by decide, by decide⟩ (h.append ⟨by decide, by decide⟩), handlerStub_eq name⟩

theorem lineFeed_notMem_handlerStub : '\n' ∉ handlerStub name := by
  obtain ⟨t, ht, htext⟩ := exists_handlerStub_eq h
  rw [htext]
  exact List.not_mem_append isStatement_function.flat.lineFeed ht.lineFeed

/-- The stub of a handler does nothing outside all blocks. -/
theorem skips_handlerStub {bindings : Bindings} {r : ReaderState} (hr : r.around = []) :
    r.Skips bindings (handlerStub name) := by
  obtain ⟨t, ht, htext⟩ := exists_handlerStub_eq h
  obtain ⟨u, hu, -⟩ := LineContent.exists_ofLine_append isStatement_function (c := 'f') rfl
    (by decide) all_isBlank_nil ht.semicolon
  have hhead : ("function".toList ++ u).head? = some 'f' := rfl
  have hnot : ∀ word : List Char, word.head? = some 'U' →
      afterWord? word ("function".toList ++ u) = none := fun word hword =>
    afterWord?_of_head hword hhead (by decide)
  have hmoves : moveArguments? ("function".toList ++ u) = none := by
    refine moveArguments?_of_callOf? ?_
    rw [callOf?, hnot _ rfl]
    rfl
  intro n
  rw [htext, readLine_of_statement hu, step, opensBlock, closesBlock,
    isEmptyCall_of_head (hnot _ rfl), isEmptyCall_of_head (hnot _ rfl), hmoves, hr]
  rfl

/-- The stub of a handler binds at most a name that starts like the word of a function. -/
theorem head_of_binding?_handlerStub {τ : List Char} (hτ : τ ∈ Lua.statements (handlerStub name))
    {b : List Char × Num} (hb : binding? τ = some b) : b.1.head? = some 'f' := by
  obtain ⟨t, ht, htext⟩ := exists_handlerStub_eq h
  obtain ⟨u, hu, -⟩ := isStatement_function.exists_statements_append all_isBlank_nil ht.semicolon
  rw [htext, hu, List.mem_singleton] at hτ
  subst hτ
  rw [binding?, optionalLocal, Shape.afterLocal?_of_head (c := 'f') rfl (by decide)] at hb
  simp only [Option.bind_none, Option.none_or, assignment?, Option.bind_eq_bind,
    Option.bind_eq_some_iff] at hb
  obtain ⟨first, hfirst, _, -, _, -, heq⟩ := hb
  obtain rfl := Option.some.inj heq
  have hfirst : some ('f' :: _, _) = some first := hfirst
  obtain rfl := Option.some.inj hfirst
  rfl

end Stubs

/-! ## Scripts -/

/-- Where only names like the word of a function are bound, the line before the blocks moves by
nothing. -/
theorem resolveNumber_bindingsOf {ls : List Line}
    (h : ∀ l ∈ ls, ∀ τ ∈ Lua.statements l, ∀ b, binding? τ = some b → b.1.head? = some 'f') :
    resolveNumber (bindingsOf ls) "x0".toList = none := by
  have hnone : (bindingsOf ls).get? "x0" = none := Table.get?_eq_none_iff.2 fun hmem => by
    obtain ⟨entry, hentry, hkey⟩ := List.mem_map.1 hmem
    obtain ⟨b, hb, rfl⟩ := List.mem_map.1 (Table.mem_of_mem_ofList hentry)
    obtain ⟨τ, hτ, hbinding⟩ := List.mem_filterMap.1 hb
    obtain ⟨l, hl, hτ⟩ := List.mem_flatMap.1 hτ
    have hhead := h l hl τ hτ b hbinding
    have hname : b.1 = "x0".toList := by
      rw [← String.toList_ofList (l := b.1)]
      exact congrArg String.toList hkey
    rw [hname] at hhead
    exact absurd hhead (by decide)
  have hnumeral : readNumeral "x0".toList = none := by
    decide +kernel
  have htrim : String.ofList (trim "x0".toList) = "x0" := by
    decide +kernel
  unfold resolveNumber
  rw [hnumeral]
  dsimp only
  rw [htrim, hnone, ite_self]

/-- That the script of a scene can be written and read, and its candidates have the ids of the
elements, one for each, in order. -/
def Scene.TellsIds (s : Scene) : Prop :=
  ∃ text cs, s.script = .ok text ∧ candidatesOf text = .ok cs ∧
    cs.map Candidate.id? = s.order.map some

instance (s : Scene) : Decidable s.TellsIds :=
  decidable_of_iff (∃ cs ∈ (s.script.bind candidatesOf).toOption,
      cs.map Candidate.id? = s.order.map some) <| by
    unfold Scene.TellsIds
    cases s.script with
    | error err => simp [Except.bind, Except.toOption]
    | ok text => cases h : candidatesOf text <;> simp [Except.bind, Except.toOption, h]

namespace Scene.Traceable

variable {s : Scene} (h : s.Traceable)

include h

theorem traceable_of_mem {e : Element} (he : e ∈ s.orderedElements) : e.Traceable :=
  of_mem_orderedElements h.elements he

theorem unbroken_of_mem_handlers : ∀ name ∈ s.handlers, Unbroken name := by
  intro name hname
  obtain ⟨e, he, hhandler⟩ := (handlersOf_spec s.orderedElements).1 name hname
  exact (h.traceable_of_mem he).unbroken_handlerName hhandler

/-- The script of a traceable scene tells its elements. -/
theorem tellsIds : s.TellsIds := by
  have hindent : (indentStep ++ indentStep).all isBlank = true := by decide
  obtain ⟨blocks, hblocks, hfinds⟩ := exists_finds_blocksOf hindent (by decide)
    fun e he => h.traceable_of_mem he
  have hhandlers := h.unbroken_of_mem_handlers
  have hframe : ∀ l ∈ headerLines ++ footerLines, '\n' ∉ l ∧
      ∀ σ ∈ Lua.statements l, binding? σ = none := by
    decide +kernel
  have hlines : ∀ l ∈ writtenLines blocks s.handlers, '\n' ∉ l :=
    forall_mem_writtenLines.2 ⟨fun l hl => (hframe l hl).1, hfinds.lineFeed,
      fun name hname => lineFeed_notMem_handlerStub (hhandlers name hname)⟩
  have hbinds : ∀ l ∈ writtenLines blocks s.handlers ++ [[]], ∀ τ ∈ Lua.statements l,
      ∀ b, binding? τ = some b → b.1.head? = some 'f' := by
    have hnone : ∀ {τ : List Char} {b}, binding? τ = none → binding? τ = some b →
        b.1.head? = some 'f' := fun hnone hb => absurd (hnone.symm.trans hb) (by simp)
    refine List.forall_mem_append.2 ⟨forall_mem_writtenLines.2 ⟨fun l hl τ hτ b hb => ?_,
      fun l hl τ hτ b hb => ?_, fun name hname τ hτ b hb => ?_⟩, fun l hl τ hτ => ?_⟩
    · exact hnone ((hframe l hl).2 τ hτ) hb
    · exact hnone (hfinds.binds l hl τ hτ) hb
    · exact head_of_binding?_handlerStub (hhandlers name hname) hτ hb
    · rw [List.mem_singleton.1 hl, statements_of_blank rfl] at hτ
      exact absurd hτ List.not_mem_nil
  obtain ⟨cs, hcs, hids⟩ := hfinds.reads (bindingsOf (writtenLines blocks s.handlers ++ [[]]))
    (1 + headerLines.length) [Context.start] []
  have hread := candidatesOf_writtenLines hlines rfl (resolveNumber_bindingsOf hbinds) hcs
    fun name hname => skips_handlerStub (hhandlers name hname) rfl
  refine ⟨_, cs, ?_, by rw [hread, List.append_nil, List.reverse_reverse], ?_⟩
  · rw [script, scriptLines, hblocks]
    rfl
  · rw [hids, map_id_of_keys h.keys h.order]

end Scene.Traceable

end SceneScript
