import SceneScript.Proofs.Script.Block

/-!
# Reading a block

The reader takes the block of a readable element as one unit, wherever the block stands, whatever
the script binds, and whatever blanks surround its lines: the element is found at the place reached
so far plus its own, and the context around is as before but for what waited in it.

Main statement: the block is read as one candidate (`ReaderState.readLines_block`).
-/

namespace SceneScript

open Lua Text

/-! ## Candidates of elements -/

/-- The candidate of an element in a frame, at a place, with some props. -/
def Element.candidate (e : Element) (f : Frame) (x y : Num) (props : Table Json) (line : Int) :
    Candidate :=
  ⟨e.type, x, y, .int f.w, .int f.h, props, some e.id, some e.name, line⟩

theorem Candidate.ofCall_marker {s : Shape} {e : Element} (htype : s.type.name = e.type) (f : Frame)
    (bindings : Bindings) (call : Call) (x y : Num) (line : ℕ) :
    ofCall bindings s call (some (f.marker e)) x y line =
      (e.candidate f x y (s.extract bindings call).props line).withHandler s
        (s.extract bindings call).handler? := by
  rw [Element.candidate, ← htype]
  rfl

theorem Candidate.withHandler_candidate {s : Shape} {k : HandlerKey} (hk : s.handler? = some k)
    (e : Element) (f : Frame) (x y : Num) (props : Table Json) (line : Int) (name : List Char) :
    (e.candidate f x y props line).withHandler s (some name) =
      e.candidate f x y (if k.derivedName e.name.toList = name then props
        else props.insert k.key (.str (String.ofList name))) line := by
  have hderives : (e.candidate f x y props line).derives k name =
      decide (k.derivedName e.name.toList = name) := rfl
  simp only [withHandler, hk, hderives, decide_eq_true_eq]
  split <;> rfl

theorem Candidate.withHandler_none (c : Candidate) (s : Shape) : c.withHandler s none = c := by
  unfold withHandler
  split
  · next h => simp at h
  · rfl

/-! ## Described props -/

section Described

variable {s : Shape} {e : Element} {entries : List (String × Json)}
  (hshape : shapeOf? e.type = some s) (hdescribed : s.written.mapM e.describedEntry = .ok entries)

include hdescribed in
theorem keys_of_described : entries.map Prod.fst = s.written.map Prod.fst := by
  refine (map_eq_of_forall₂ (fun p q h => ?_) (mapM_eq_ok_iff.1 hdescribed)).symm
  obtain ⟨v, -, hq⟩ := bind_eq_ok.1 h
  obtain rfl := Except.ok.inj hq
  rfl

include hshape hdescribed

theorem entries_described : (Table.empty.insertAll entries).entries = entries := by
  have hkeys := (wellFormed_of_mem_shapes s (shapeOf?_eq_some hshape).1).keys
  rw [← keys_of_described hdescribed] at hkeys
  rw [Table.insertAll_empty]
  exact Entries.ofList_of_nodup (List.nodup_append.1 hkeys).1

theorem describedProps_eq : e.describedProps = .ok (entries ++ e.describedHandler) := by
  rw [Element.describedProps, hshape]
  dsimp only
  rw [hdescribed]
  rfl

/-- Without a handler nothing is added to the written props. -/
theorem describedProps_of_handler_none (hk : s.handler? = none) :
    e.describedProps = .ok (Table.empty.insertAll entries).entries := by
  have hnone : e.describedHandler = [] := by
    rw [Element.describedHandler, hshape, Option.bind_some, hk]
  rw [describedProps_eq hshape hdescribed, hnone, List.append_nil,
    entries_described hshape hdescribed]

/-- A handler comes last, unless it is the one made from the name. -/
theorem describedProps_of_handler {k : HandlerKey} (hk : s.handler? = some k) {name : List Char}
    (hname : e.handlerName? = some name) :
    e.describedProps = .ok (if k.derivedName e.name.toList = name
      then Table.empty.insertAll entries
      else (Table.empty.insertAll entries).insert k.key (.str (String.ofList name))).entries := by
  have hentries := entries_described hshape hdescribed
  rw [describedProps_eq hshape hdescribed, Element.describedHandler, hshape, Option.bind_some, hk,
    hname]
  dsimp only
  split
  · rw [List.append_nil, hentries]
  · have hkeys := (wellFormed_of_mem_shapes s (shapeOf?_eq_some hshape).1).keys
    rw [← keys_of_described hdescribed, hk, List.nodup_append] at hkeys
    have hnot : k.key ∉ (Table.empty.insertAll entries).keys := fun hm => by
      rw [Table.keys, hentries] at hm
      exact hkeys.2.2 _ hm _ List.mem_cons_self rfl
    rw [Table.insert_of_notMem hnot, hentries]

end Described

/-! ## Steps of the reader -/

namespace ReaderState

variable {bindings : Bindings} {n : ℕ} {r : ReaderState}

theorem step_push : step bindings n r "UiPush()".toList = .ok r.push := by
  rw [step, if_pos (by decide)]

theorem step_pop : step bindings n r "UiPop()".toList = .ok r.pop := by
  rw [step, if_neg (by decide), if_pos (by decide)]

/-- A quiet statement is looked at inside blocks only. -/
theorem step_quiet {σ : List Char} (h : Quiet σ) :
    step bindings n r σ = .ok (if r.around.isEmpty then r else r.enter bindings n σ) := by
  rw [step, h.opens, h.closes, h.moves]
  rfl

/-- A move whose numbers are not too long to be read. -/
theorem step_move_of_length {x y : ℤ} (hx : (decimalDigits x.natAbs).length ≤ digitLimit)
    (hy : (decimalDigits y.natAbs).length ≤ digitLimit) :
    step bindings n r (moveText x y) = (r.current.x.add (.int x)).bind fun x =>
      (r.current.y.add (.int y)).bind fun y =>
        .ok { r with current := { r.current with x := x, y := y, awaiting? := none } } := by
  have hinert := inert_moveText x y
  have hresolve : ∀ {k : ℤ}, (decimalDigits k.natAbs).length ≤ digitLimit →
      resolveNumber bindings (intDigits k) = some (.int k) := by
    intro k hk
    rw [resolveNumber, readNumeral_intDigits hk]
  rw [step, hinert.opens, hinert.closes, moveArguments?_moveText]
  simp only [Bool.false_eq_true, if_false, Context.move, hresolve hx, hresolve hy]
  cases r.current.x.add (.int x) with
  | error err => rfl
  | ok x =>
    cases r.current.y.add (.int y) with
    | error err => rfl
    | ok y => rfl

theorem step_move {x y : ℤ} (hx : x.natAbs < Nat.pow 2 2098) (hy : y.natAbs < Nat.pow 2 2098) :
    step bindings n r (moveText x y) = (r.current.x.add (.int x)).bind fun x =>
      (r.current.y.add (.int y)).bind fun y =>
        .ok { r with current := { r.current with x := x, y := y, awaiting? := none } } :=
  step_move_of_length (length_decimalDigits_le_digitLimit hx)
    (length_decimalDigits_le_digitLimit hy)

theorem readLine_of_statement {l : Line} {σ : List Char}
    (h : LineContent.ofLine l = .ok (.statements [σ])) :
    readLine bindings r l n = step bindings n r σ := by
  rw [readLine, h]
  exact bind_pure (step bindings n r σ)

theorem readLine_of_marker {l : Line} {m : Marker} (h : LineContent.ofLine l = .ok (.marker m)) :
    readLine bindings r l n = .ok (r.mark m) := by
  rw [readLine, h]
  rfl

theorem readLines_cons (l : Line) (ls : List Line) :
    readLines bindings n r (l :: ls) =
      (readLine bindings r l n).bind fun r => readLines bindings (n + 1) r ls := rfl

theorem readLines_cons_ok {l : Line} {r' : ReaderState} (h : readLine bindings r l n = .ok r')
    (ls : List Line) : readLines bindings n r (l :: ls) = readLines bindings (n + 1) r' ls := by
  rw [readLines_cons, h]
  rfl

theorem readLines_append (ls ls' : List Line) :
    readLines bindings n r (ls ++ ls') =
      (readLines bindings n r ls).bind fun r => readLines bindings (n + ls.length) r ls' := by
  induction ls generalizing n r with
  | nil => rfl
  | cons l ls ih =>
    rw [List.cons_append, readLines_cons, readLines_cons]
    cases readLine bindings r l n with
    | error err => rfl
    | ok r' =>
      have hlength : n + (l :: ls).length = n + 1 + ls.length := by
        rw [List.length_cons]
        omega
      rw [hlength]
      exact ih

theorem readLines_append_ok {ls : List Line} {r' : ReaderState}
    (h : readLines bindings n r ls = .ok r') (ls' : List Line) :
    readLines bindings n r (ls ++ ls') = readLines bindings (n + ls.length) r' ls' := by
  rw [readLines_append, h]
  rfl

/-! ## Statements of an element -/

section Statements

variable {e : Element} (he : e.Readable) {s : Shape} (hshape : shapeOf? e.type = some s)
  {f : Frame}

/-- What a text tells of an element becomes a candidate, with the marker that the block carries. -/
theorem enter_of_tells (hs : s.type.name = e.type) {σ : List Char} {call : Call}
    {entries : List (String × Json)} (h : s.Tells e σ call entries)
    (hcarried : r.current.carried? = some (f.marker e)) (hawaiting : r.current.awaiting? = none) :
    r.enter bindings n σ =
      ⟨{ r.current with
          carried? := none
          awaiting? := if s.form = .slider then some (s, call) else none },
        r.around,
        (e.candidate f r.current.x r.current.y (Table.empty.insertAll entries) n).withHandler s
          (if s.form = .conditional then e.handlerName? else none) :: r.found⟩ := by
  obtain ⟨w?, h?, hextract⟩ := h.extract bindings
  simp only [enter, recognize, h.recognized, hcarried, hawaiting, Candidate.ofCall_marker hs,
    hextract]

theorem readLine_of_tells (hs : s.type.name = e.type) {l : Line} {σ : List Char} {call : Call}
    {entries : List (String × Json)} (hl : LineContent.ofLine l = .ok (.statements [σ]))
    (hquiet : Quiet σ) (h : s.Tells e σ call entries) (haround : r.around.isEmpty = false)
    (hcarried : r.current.carried? = some (f.marker e)) (hawaiting : r.current.awaiting? = none) :
    readLine bindings r l n = .ok ⟨{ r.current with
          carried? := none
          awaiting? := if s.form = .slider then some (s, call) else none },
        r.around,
        (e.candidate f r.current.x r.current.y (Table.empty.insertAll entries) n).withHandler s
          (if s.form = .conditional then e.handlerName? else none) :: r.found⟩ := by
  rw [readLine_of_statement hl, step_quiet hquiet, haround,
    ← enter_of_tells hs h hcarried hawaiting]
  rfl

omit he in
include hshape in
/-- Outside sliders the described props are those that are told, with the handler. -/
theorem candidate_of_tells {props : Table Json} (hprops : e.describedProps = .ok props.entries)
    {σ : List Char} {call : Call} {entries : List (String × Json)} (h : s.Tells e σ call entries)
    {handler? : Option (List Char)} (hsome : handler?.isSome = s.handler?.isSome)
    (hname : ∀ name ∈ handler?, e.handlerName? = some name) (x y : Num) (line : ℤ) :
    (e.candidate f x y (Table.empty.insertAll entries) line).withHandler s handler? =
      e.candidate f x y props line := by
  cases hk : s.handler? with
  | none =>
    obtain rfl : handler? = none := by simpa [hk] using hsome
    have hentries := describedProps_of_handler_none hshape h.described hk
    obtain rfl : props = Table.empty.insertAll entries :=
      Table.ext (Except.ok.inj (hprops.symm.trans hentries))
    exact Candidate.withHandler_none _ s
  | some k =>
    obtain ⟨name, rfl⟩ : ∃ name, handler? = some name := by
      simpa [hk, Option.isSome_iff_exists] using hsome
    have hentries := describedProps_of_handler hshape h.described hk (hname name rfl)
    rw [Candidate.withHandler_candidate hk]
    exact congrArg (e.candidate f x y · line)
      (Table.ext (Except.ok.inj (hentries.symm.trans hprops)))

omit he hshape in
/-- The statement behind a slider gives its candidate the handler. -/
theorem readLine_followUp {call : Call} (hform : s.form = .slider) {v handler : List Char}
    (htargets : call.targets = [v, Shape.doneName]) (hv : isIdentifier v = true)
    (hcallee : isCallee handler = true) {l : Line}
    (hl : LineContent.ofLine l = .ok (.statements [Shape.followUpText v handler]))
    (haround : r.around.isEmpty = false) (hawaiting : r.current.awaiting? = some (s, call))
    {c : Candidate} {found : List Candidate} (hfound : r.found = c :: found) :
    readLine bindings r l n = .ok ⟨{ r.current with awaiting? := none }, r.around,
      c.withHandler s (some handler) :: found⟩ := by
  rw [readLine_of_statement hl, step_quiet Shape.quiet_followUp, haround]
  simp [enter, hawaiting, Shape.followUpHandler?_followUp hv hcallee hform htargets, giveHandler,
    hfound]

/-- Once a slider has had its handler, the context is as if nothing had waited for one. -/
theorem current_of_awaiting {c : Context} (hawaiting : c.awaiting? = none) :
    { c with carried? := none, awaiting? := none } = ({ c with carried? := none } : Context) := by
  rw [← hawaiting]

variable {front back : List Char} (hfront : front.all isBlank = true)
  (hback : back.all isBlank = true) {props : Table Json}
  (hprops : e.describedProps = .ok props.entries)
  (haround : r.around.isEmpty = false) (hcarried : r.current.carried? = some (f.marker e))
  (hawaiting : r.current.awaiting? = none)

include he hshape hprops haround hcarried hawaiting

/-- A statement that is alone makes the candidate, with the handler if it is a condition. -/
theorem readLines_alone {l : Line} {σ : List Char} {call : Call} {entries : List (String × Json)}
    (hslider : s.form ≠ .slider) (hquiet : Quiet σ) (htells : s.Tells e σ call entries)
    (hl : LineContent.ofLine l = .ok (.statements [σ])) :
    readLines bindings n r [l] = .ok ⟨{ r.current with carried? := none }, r.around,
      e.candidate f r.current.x r.current.y props n :: r.found⟩ := by
  obtain ⟨hs, htype⟩ := shapeOf?_eq_some hshape
  have hsome : (if s.form = .conditional then e.handlerName? else none).isSome =
      s.handler?.isSome := by
    rw [(wellFormed_of_mem_shapes s hs).handler]
    split_ifs with hform
    · obtain ⟨k, name, -, hname, -⟩ := he.handler_of_form hshape (.inl hform)
      simp [hname, hform]
    · simp [hform, hslider]
  have hcandidate := candidate_of_tells (f := f) hshape hprops htells hsome
    (fun name hname => by
      split_ifs at hname
      · exact hname
      · simp at hname) r.current.x r.current.y n
  rw [readLines_cons, readLine_of_tells htype hl hquiet htells haround hcarried hawaiting,
    if_neg hslider, current_of_awaiting hawaiting, hcandidate]
  rfl

include hfront hback

/-- The two statements of a slider make the candidate: the first one tells what it is, and the one
behind gives it the handler. -/
theorem readLines_slider {σs : List Line} (hσs : s.build e = .ok σs) (hform : s.form = .slider) :
    readLines bindings n r (σs.map (front ++ · ++ back)) =
      .ok ⟨{ r.current with carried? := none }, r.around,
        e.candidate f r.current.x r.current.y props n :: r.found⟩ := by
  obtain ⟨hs, htype⟩ := shapeOf?_eq_some hshape
  obtain ⟨v, low, high, handler, call, entries, hbuild, hreads, htargets, hv, hcallee, hname⟩ :=
    Shape.build_of_slider he hshape hform
  obtain rfl := Except.ok.inj (hbuild.symm.trans hσs)
  have hfirst := LineContent.ofLine_statement hfront hback hreads.isStatement
  have hsecond := LineContent.ofLine_statement hfront hback (Shape.isStatement_followUp hv hcallee)
  have hsome : (some handler).isSome = s.handler?.isSome := by
    simp [(wellFormed_of_mem_shapes s hs).handler, hform]
  have hcandidate := candidate_of_tells (f := f) hshape hprops hreads.toTells hsome
    (by simp [hname]) r.current.x r.current.y n
  rw [List.map_cons, List.map_singleton, readLines_cons,
    readLine_of_tells htype hfirst hreads.quiet hreads.toTells haround hcarried hawaiting,
    if_pos hform, if_neg (by rw [hform]; decide), Candidate.withHandler_none]
  have hlast := @readLine_followUp bindings (n + 1)
    ⟨{ r.current with carried? := none, awaiting? := some (s, call) }, r.around,
      e.candidate f r.current.x r.current.y (Table.empty.insertAll entries) n :: r.found⟩
    s call hform v handler htargets hv hcallee _ hsecond haround rfl _ _ rfl
  rw [hcandidate] at hlast
  rw [← current_of_awaiting hawaiting]
  exact congrArg (Except.bind · fun r => .ok r) hlast

/-- The statements of a readable element make its candidate. -/
theorem readLines_build {σs : List Line} (hσs : s.build e = .ok σs) :
    readLines bindings n r (σs.map (front ++ · ++ back)) =
      .ok ⟨{ r.current with carried? := none }, r.around,
        e.candidate f r.current.x r.current.y props n :: r.found⟩ := by
  cases hform : s.form with
  | call =>
    obtain ⟨σ, call, entries, hbuild, hreads⟩ := Shape.build_of_call he hshape (.inl hform)
    obtain rfl := Except.ok.inj (hbuild.symm.trans hσs)
    exact readLines_alone he hshape hprops haround hcarried hawaiting (by rw [hform]; decide)
      hreads.quiet hreads.toTells (LineContent.ofLine_statement hfront hback hreads.isStatement)
  | conditional =>
    obtain ⟨σ, call, entries, hbuild, hreads⟩ := Shape.build_of_call he hshape (.inr hform)
    obtain rfl := Except.ok.inj (hbuild.symm.trans hσs)
    exact readLines_alone he hshape hprops haround hcarried hawaiting (by rw [hform]; decide)
      hreads.quiet hreads.toTells (LineContent.ofLine_statement hfront hback hreads.isStatement)
  | comment =>
    have hbuild : s.build e = .ok [Shape.drawLaterComment] := by rw [Shape.build, hform]
    obtain rfl := Except.ok.inj (hbuild.symm.trans hσs)
    exact readLines_alone he hshape hprops haround hcarried hawaiting (by rw [hform]; decide)
      quiet_drawLater (Shape.tells_drawLater (shapeOf?_eq_some hshape).1 hform e)
      (LineContent.ofLine_drawLater hfront hback)
  | slider =>
    exact readLines_slider he hshape hfront hback hprops haround hcarried hawaiting hσs hform

end Statements

/-! ## Blocks -/

section Blocks

variable {e : Element} (he : e.Readable) {f : Frame} (hf : e.RoundsTo f) {σs : List Line}
  {indent back : List Char} (hindent : indent.all isBlank = true)
  (hback : back.all isBlank = true)

include he hf hindent hback

/-- A block without its last line is read as the candidate that its statements make at the place
reached so far plus that of the block, and the reader is inside the block then. -/
theorem readLines_head_of_inside {inside : Num → Num → Context} {c : Num → Num → Candidate}
    (hinside : ∀ x y, readLines bindings (n + 3)
      ⟨⟨x, y, none, some (f.marker e), none⟩, r.current.outer :: r.around, r.found⟩
      (σs.map (indent ++ indentStep ++ · ++ back)) =
        .ok ⟨inside x y, r.current.outer :: r.around, c x y :: r.found⟩) :
    readLines bindings n r ((blockLines e f σs indent).dropLast.map (· ++ back)) =
      (r.current.x.add (.int f.x)).bind fun x => (r.current.y.add (.int f.y)).bind fun y =>
        .ok ⟨inside x y, r.current.outer :: r.around, c x y :: r.found⟩ := by
  have hinner : (indent ++ indentStep).all isBlank = true := by
    rw [List.all_append, hindent]
    decide
  have hmarker : LineContent.ofLine (indent ++ Marker.text e f.w f.h ++ back) =
      .ok (.marker (f.marker e)) := LineContent.ofLine_marker hindent hback he hf.w_lt hf.h_lt
  have hopening := LineContent.ofLine_statement hindent hback isStatement_opening
  have hmove := LineContent.ofLine_statement hinner hback (isStatement_moveText f.x f.y)
  have hlines : (blockLines e f σs indent).dropLast.map (· ++ back) =
      (indent ++ Marker.text e f.w f.h ++ back) :: (indent ++ "UiPush()".toList ++ back) ::
        (indent ++ indentStep ++ moveText f.x f.y ++ back) ::
          σs.map (indent ++ indentStep ++ · ++ back) := by
    rw [blockLines, List.dropLast_concat]
    simp only [List.map_cons, List.map_map]
    rfl
  have hpush : readLine bindings (r.mark (f.marker e)) (indent ++ "UiPush()".toList ++ back)
      (n + 1) = .ok (r.mark (f.marker e)).push := by
    rw [readLine_of_statement hopening, step_push]
  rw [hlines, readLines_cons_ok (readLine_of_marker hmarker), readLines_cons_ok hpush,
    readLines_cons, readLine_of_statement hmove, step_move hf.x_lt hf.y_lt]
  have hx : (r.mark (f.marker e)).push.current.x = r.current.x := rfl
  have hy : (r.mark (f.marker e)).push.current.y = r.current.y := rfl
  rw [hx, hy]
  cases r.current.x.add (.int f.x) with
  | error err => rfl
  | ok x =>
    cases r.current.y.add (.int f.y) with
    | error err => rfl
    | ok y => exact hinside x y

/-- A block is read as the candidate that its statements make at the place reached so far plus that
of the block, whatever they leave of the context inside. -/
theorem readLines_block_of_inside {inside : Num → Num → Context} {c : Num → Num → Candidate}
    (hinside : ∀ x y, readLines bindings (n + 3)
      ⟨⟨x, y, none, some (f.marker e), none⟩, r.current.outer :: r.around, r.found⟩
      (σs.map (indent ++ indentStep ++ · ++ back)) =
        .ok ⟨inside x y, r.current.outer :: r.around, c x y :: r.found⟩) :
    readLines bindings n r ((blockLines e f σs indent).map (· ++ back)) =
      (r.current.x.add (.int f.x)).bind fun x => (r.current.y.add (.int f.y)).bind fun y =>
        .ok ⟨r.current.outer, r.around, c x y :: r.found⟩ := by
  have hlines : (blockLines e f σs indent).map (· ++ back) =
      (blockLines e f σs indent).dropLast.map (· ++ back) ++
        [indent ++ "UiPop()".toList ++ back] := by
    rw [blockLines, List.dropLast_concat, List.map_append, List.map_singleton]
  rw [hlines, readLines_append, readLines_head_of_inside he hf hindent hback hinside]
  cases r.current.x.add (.int f.x) with
  | error err => rfl
  | ok x =>
    cases r.current.y.add (.int f.y) with
    | error err => rfl
    | ok y =>
      have hpop : ∀ n, readLine bindings ⟨inside x y, r.current.outer :: r.around, c x y :: r.found⟩
          (indent ++ "UiPop()".toList ++ back) n =
            .ok ⟨r.current.outer, r.around, c x y :: r.found⟩ := by
        intro n
        rw [readLine_of_statement
          (LineContent.ofLine_statement hindent hback isStatement_closing), step_pop]
        rfl
      exact readLines_cons_ok (hpop _) []

section Readable

variable (hσs : e.statements = .ok σs) {props : Table Json}
  (hprops : e.describedProps = .ok props.entries)

include hσs hprops

omit hf in
/-- The statements of a readable element are read as its candidate inside its block. -/
theorem readLines_inside (x y : Num) : readLines bindings (n + 3)
    ⟨⟨x, y, none, some (f.marker e), none⟩, r.current.outer :: r.around, r.found⟩
    (σs.map (indent ++ indentStep ++ · ++ back)) =
      .ok ⟨⟨x, y, none, none, none⟩, r.current.outer :: r.around,
        e.candidate f x y props (n + 3 : ℕ) :: r.found⟩ := by
  obtain ⟨s, hshape⟩ := he.shape
  have hbuild : s.build e = .ok σs := by
    rw [Element.statements, hshape] at hσs
    exact hσs
  have hinner : (indent ++ indentStep).all isBlank = true := by
    rw [List.all_append, hindent]
    decide
  exact readLines_build he hshape hinner hback hprops rfl rfl rfl hbuild

/-- The block of a readable element without its last line is read as its candidate, at the place
reached so far plus its own. -/
theorem readLines_head :
    readLines bindings n r ((blockLines e f σs indent).dropLast.map (· ++ back)) =
      (r.current.x.add (.int f.x)).bind fun x => (r.current.y.add (.int f.y)).bind fun y =>
        .ok ⟨⟨x, y, none, none, none⟩, r.current.outer :: r.around,
          e.candidate f x y props (n + 3 : ℕ) :: r.found⟩ :=
  readLines_head_of_inside he hf hindent hback (readLines_inside he hindent hback hσs hprops)

/-- The block of a readable element is read as its candidate, at the place reached so far plus its
own. -/
theorem readLines_block :
    readLines bindings n r ((blockLines e f σs indent).map (· ++ back)) =
      (r.current.x.add (.int f.x)).bind fun x => (r.current.y.add (.int f.y)).bind fun y =>
        .ok ⟨r.current.outer, r.around, e.candidate f x y props (n + 3 : ℕ) :: r.found⟩ :=
  readLines_block_of_inside he hf hindent hback (readLines_inside he hindent hback hσs hprops)

end Readable

end Blocks

end ReaderState

end SceneScript
