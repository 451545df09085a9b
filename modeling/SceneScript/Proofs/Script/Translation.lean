import SceneScript.Proofs.Script.Handler
import SceneScript.Proofs.Script.Layout
import SceneScript.Proofs.Script.Moved
import SceneScript.Proofs.Script.Numbering
import SceneScript.Proofs.Script.Taken

/-!
# A move put into a block

A move right behind the opening of a block moves the context of the block before anything is read in
it, and so the block as a whole: the reader of the new script is the reader of the old one with the
contexts of the block moved, until the block is closed. Which candidates are made in between is a
matter of the old script alone (`MadeInBlock`).

Main statement: in a script that moves by whole numbers, a move put behind the opening of a block
moves the candidates that are made in the block, and leaves the others as they are
(`exists_moved_candidates`).
-/

namespace SceneScript

open Lua Text

open ReaderState (LineContent)

/-! ## Events one line further down -/

/-- An event on the next line. -/
def nextLine (e : ℕ × Event) : ℕ × Event := Prod.map (· + 1) id e

theorem numbered_succ (n : ℕ) (contents : List LineContent) :
    numbered (n + 1) contents = (numbered n contents).map nextLine := by
  induction contents generalizing n with
  | nil => rfl
  | cons content contents ih =>
    rw [numbered, numbered, List.map_append, List.map_map, ih]
    rfl

/-- The events of lines of which one says one statement. -/
theorem numbered_append_cons (n : ℕ) (cb : List LineContent) (σ : List Char)
    (ca : List LineContent) : numbered n (cb ++ .statements [σ] :: ca) =
      numbered n cb ++ (n + cb.length, .statement σ) :: numbered (n + cb.length + 1) ca := by
  rw [numbered_append]
  rfl

/-- A line is read from its text, but for what draws later. -/
theorem mem_statements_of_ofLine {l : Line} {σs : List (List Char)}
    (h : LineContent.ofLine l = .ok (.statements σs)) {σ : List Char} (hσ : σ ∈ σs) :
    σ ∈ Lua.statements l ∨ (afterWord? "--".toList σ).isSome = true := by
  unfold LineContent.ofLine at h
  dsimp only at h
  split at h
  · next hcomment =>
    obtain ⟨marker?, -, h⟩ := bind_eq_ok.1 h
    cases marker? with
    | some m => cases Except.ok.inj h
    | none =>
      obtain rfl := LineContent.statements.inj (Except.ok.inj h)
      split at hσ
      · exact .inr (List.mem_singleton.1 hσ ▸ hcomment)
      · cases hσ
  · obtain rfl := LineContent.statements.inj (Except.ok.inj h)
    exact .inl hσ

/-- A comment does not move. -/
theorem moveArguments?_of_comment {σ : List Char}
    (h : (afterWord? "--".toList σ).isSome = true) : moveArguments? σ = none := by
  obtain ⟨rest, hrest⟩ := Option.isSome_iff_exists.1 h
  obtain rfl := append_of_afterWord? hrest
  rfl

/-- The events of lines that move by whole numbers do. -/
theorem movesWhole_of_mem_numbered {bindings : Lua.Bindings} {ls : List Line}
    {contents : List LineContent}
    (h : List.Forall₂ (fun l content => LineContent.ofLine l = .ok content) ls contents)
    (hwhole : ∀ σ ∈ ls.flatMap Lua.statements, MovesWhole bindings σ) {n : ℕ} :
    ∀ e ∈ numbered n contents, ∀ σ, e.2 = .statement σ → MovesWhole bindings σ := by
  intro e he σ heq
  obtain ⟨content, hcontent, hevent⟩ := ReaderState.exists_content_of_mem_numbered he
  obtain ⟨l, hl, hofLine⟩ := exists_of_mem_right h hcontent
  cases content with
  | marker m =>
    rw [heq] at hevent
    cases List.mem_singleton.1 hevent
  | statements σs =>
    obtain ⟨τ, hτ, hτe⟩ := List.mem_map.1 hevent
    obtain rfl : τ = σ := Event.statement.inj (hτe.trans heq)
    rcases mem_statements_of_ofLine hofLine hτ with hmem | hcomment
    · exact hwhole τ (List.mem_flatMap.2 ⟨l, hl, hmem⟩)
    · intro arguments harguments
      rw [moveArguments?_of_comment hcomment] at harguments
      cases harguments

/-! ## Candidates and their statements -/

/-- A statement finds at most what is new. -/
theorem ReaderState.Next.length_le {n : ℕ} {r r' : ReaderState} (h : Next n r r') :
    r.found.length ≤ r'.found.length := by
  cases h with
  | push => exact le_rfl
  | pop =>
    unfold ReaderState.pop
    split <;> exact le_rfl
  | stay => exact le_rfl
  | handler _ _ hfound => rw [hfound]; exact le_rfl
  | find => exact Nat.le_succ _

theorem ReaderState.length_le_of_handleAll {bindings : Lua.Bindings} {es : List (ℕ × Event)}
    {r r' : ReaderState} (h : es.foldlM (handle bindings) r = .ok r') :
    r.found.length ≤ r'.found.length := by
  induction es generalizing r with
  | nil =>
    obtain rfl := Except.ok.inj h
    exact le_rfl
  | cons e es ih =>
    rw [List.foldlM_cons] at h
    obtain ⟨r₁, he, hes⟩ := bind_eq_ok.1 h
    refine le_trans ?_ (ih hes)
    obtain ⟨n, event⟩ := e
    cases event with
    | marker m =>
      obtain rfl := Except.ok.inj he
      exact le_rfl
    | statement σ => exact (next_of_step he).length_le

theorem foundIn_mono {bindings : Lua.Bindings} {s t : List (ℕ × Event)} {i j : ℕ}
    (h : foundIn bindings s = .ok i) (h' : foundIn bindings (s ++ t) = .ok j) : i ≤ j := by
  obtain ⟨r, hr, rfl⟩ := map_eq_ok.1 h
  obtain ⟨r', hr', rfl⟩ := map_eq_ok.1 h'
  obtain ⟨r₁, hr₁, hr'⟩ := ReaderState.handleAll_append hr'
  obtain rfl := Except.ok.inj (hr.symm.trans hr₁)
  exact ReaderState.length_le_of_handleAll hr'

/-- The candidate of an index is made by one statement. -/
theorem MakesCandidate.eq_of_split {bindings : Lua.Bindings} {b b' s t : List (ℕ × Event)}
    {n n' index : ℕ} {σ σ' : List Char} (h : MakesCandidate bindings b n σ index)
    (h' : MakesCandidate bindings b' n' σ' index)
    (heq : b ++ (n, .statement σ) :: s = b' ++ (n', .statement σ') :: t) : b = b' := by
  have hlt : ∀ {b b' s t : List (ℕ × Event)} {n n' : ℕ} {σ σ' : List Char}
      {e : ℕ × Event} {between : List (ℕ × Event)}, MakesCandidate bindings b n σ index →
      MakesCandidate bindings b' n' σ' index → b' = b ++ e :: between →
      (n, .statement σ) :: s = (e :: between) ++ (n', .statement σ') :: t → False := by
    intro b b' s t n n' σ σ' e between h h' hb' hrest
    obtain rfl := (List.cons.inj hrest).1
    have hmono := foundIn_mono (t := between) h.2 (by
      rw [List.append_assoc, List.singleton_append, ← hb']
      exact h'.1)
    omega
  rcases List.append_eq_append_iff.1 heq with ⟨between, hb', hrest⟩ | ⟨between, hb, hrest⟩
  · cases between with
    | nil => rw [hb', List.append_nil]
    | cons e between => exact (hlt h h' hb' hrest).elim
  · cases between with
    | nil => rw [hb, List.append_nil]
    | cons e between => exact (hlt h' h hb hrest).elim

/-! ## Blocks -/

/-- The candidate of an index is made in the block that a statement of a line opens: its statement
stands behind that one, and the block is not closed in between. -/
def MadeInBlock (text : List Char) (line index : ℕ) : Prop :=
  ∃ es front σ inside n τ behind, eventsOf text = .ok es ∧
    es = front ++ (line, .statement σ) :: (inside ++ (n, .statement τ) :: behind) ∧
    opensBlock σ = true ∧
    MakesCandidate (bindingsOf (Text.lines text)) (front ++ (line, .statement σ) :: inside) n τ
      index ∧
    (openAfter 1 (statementsOf inside)).isSome = true

theorem foldl_movedAfter_zero (σs : List (List Char)) : σs.foldl movedAfter 0 = 0 := by
  induction σs with
  | nil => rfl
  | cons σ σs ih =>
    have hσ : movedAfter 0 σ = 0 := by simp [movedAfter]
    rw [List.foldl_cons, hσ, ih]

/-- While a block is open its contexts are moved, and none once it is closed. -/
theorem foldl_movedAfter_eq {depth : ℕ} (σs : List (List Char)) (hdepth : 1 ≤ depth) :
    σs.foldl movedAfter depth = (openAfter depth σs).getD 0 := by
  induction σs generalizing depth with
  | nil => rfl
  | cons σ σs ih =>
    rw [List.foldl_cons, movedAfter, openAfter]
    split
    · rw [if_neg (by omega)]
      exact ih (by omega)
    · split
      · split
        · next hlast =>
          rw [Nat.sub_eq_zero_of_le hlast, foldl_movedAfter_zero]
          rfl
        · exact ih (by omega)
      · exact ih hdepth

theorem distanceAt_foldl_of_isSome {δ : Distance} {σs : List (List Char)}
    (h : (openAfter 1 σs).isSome = true) : distanceAt δ (σs.foldl movedAfter 1) = δ := by
  obtain ⟨depth, hdepth⟩ := Option.isSome_iff_exists.1 h
  obtain ⟨d, rfl⟩ := Nat.exists_eq_succ_of_ne_zero
    (Nat.one_le_iff_ne_zero.1 (one_le_of_openAfter le_rfl hdepth))
  rw [foldl_movedAfter_eq _ le_rfl, hdepth]
  rfl

theorem distanceAt_foldl_of_not_isSome {δ : Distance} {σs : List (List Char)}
    (h : ¬ (openAfter 1 σs).isSome = true) : distanceAt δ (σs.foldl movedAfter 1) = (0, 0) := by
  rw [Option.not_isSome_iff_eq_none] at h
  rw [foldl_movedAfter_eq _ le_rfl, h]
  rfl

theorem ReaderState.foldlM_handle_cons {bindings : Lua.Bindings} {r r' : ReaderState} {n : ℕ}
    {σ : List Char} (h : step bindings n r σ = .ok r') (es : List (ℕ × Event)) :
    ((n, .statement σ) :: es).foldlM (handle bindings) r = es.foldlM (handle bindings) r' := by
  have hhandle : handle bindings r (n, .statement σ) = .ok r' := h
  rw [List.foldlM_cons, hhandle]
  rfl

theorem ReaderState.foldlM_handle_append {bindings : Lua.Bindings} {r r' : ReaderState}
    {es : List (ℕ × Event)} (h : es.foldlM (handle bindings) r = .ok r') (es' : List (ℕ × Event)) :
    (es ++ es').foldlM (handle bindings) r = es'.foldlM (handle bindings) r' := by
  rw [List.foldlM_append, h]
  rfl

/-- A statement by which one more candidate is found makes it. -/
theorem makesCandidate_of_step {bindings : Lua.Bindings} {inside : List (ℕ × Event)} {n : ℕ}
    {σ : List Char} {r r' : ReaderState}
    (hinside : inside.foldlM (ReaderState.handle bindings) ReaderState.start = .ok r)
    (hstep : ReaderState.step bindings n r σ = .ok r')
    (hlength : r'.found.length = r.found.length + 1) :
    MakesCandidate bindings inside n σ r.found.length := by
  refine ⟨map_eq_ok.2 ⟨r, hinside, rfl⟩, map_eq_ok.2 ⟨r', ?_, hlength⟩⟩
  rw [ReaderState.foldlM_handle_append hinside]
  exact ReaderState.foldlM_handle_cons hstep []

/-- The distance of the candidate of an index from where it was, once a block is moved. -/
noncomputable def distanceIn (text : List Char) (line : ℕ) (δ : Distance) (index : ℕ) : Distance :=
  open Classical in if MadeInBlock text line index then δ else (0, 0)

/-- A line of a script opens a block and says nothing else, and what is said in front of it and
behind moves by whole numbers. -/
structure OpensAt (text : List Char) (line : ℕ) (front tail : List (ℕ × Event)) : Prop where
  events : eventsOf text = .ok (front ++ (line, .statement "UiPush()".toList) :: tail)
  front_ne : ∀ e ∈ front, e.1 ≠ line
  tail_ne : ∀ e ∈ tail, e.1 ≠ line
  whole : ∀ e ∈ front ++ tail, ∀ σ, e.2 = .statement σ →
    MovesWhole (bindingsOf (Text.lines text)) σ

namespace OpensAt

variable {text : List Char} {line : ℕ} {front tail : List (ℕ × Event)}
  (h : OpensAt text line front tail)

include h

/-- Which candidates are made in the block. -/
theorem madeInBlock_iff {index : ℕ} : MadeInBlock text line index ↔
    ∃ inside n τ behind, tail = inside ++ (n, .statement τ) :: behind ∧
      MakesCandidate (bindingsOf (Text.lines text))
        (front ++ (line, .statement "UiPush()".toList) :: inside) n τ index ∧
      (openAfter 1 (statementsOf inside)).isSome = true := by
  constructor
  · rintro ⟨es, front', σ, inside, n, τ, behind, hes, hsplit, -, hmakes, hopen⟩
    obtain rfl := Except.ok.inj (h.events.symm.trans hes)
    -- the line has one event, so there is one way to cut at it
    obtain ⟨rfl, rfl, rfl⟩ : front = front' ∧ "UiPush()".toList = σ ∧
        tail = inside ++ (n, .statement τ) :: behind := by
      rcases List.append_eq_append_iff.1 hsplit with ⟨between, rfl, hrest⟩ | ⟨between, rfl, hrest⟩
      · cases between with
        | nil => simpa using hrest
        | cons e between =>
          obtain ⟨-, rfl⟩ := List.cons.inj hrest
          exact absurd rfl (h.tail_ne (line, .statement σ) (by simp))
      · cases between with
        | nil => simpa [eq_comm] using hrest
        | cons e between =>
          obtain ⟨rfl, -⟩ := List.cons.inj hrest
          exact absurd rfl (h.front_ne (line, .statement σ) (by simp))
    exact ⟨inside, n, τ, behind, rfl, hmakes, hopen⟩
  · rintro ⟨inside, n, τ, behind, rfl, hmakes, hopen⟩
    exact ⟨_, front, _, inside, n, τ, behind, h.events, rfl, by decide, hmakes, hopen⟩

variable {r₀ r : ReaderState}
  (hr₀ : front.foldlM (ReaderState.handle (bindingsOf (Text.lines text))) ReaderState.start =
    .ok r₀)

include hr₀

/-- In front of the block nothing is moved. -/
theorem moved_front (δ : Distance) : r₀.Moved δ (distanceIn text line δ) 0 r₀ := by
  have hstart : ReaderState.start.Moved δ (distanceIn text line δ) 0 ReaderState.start :=
    ⟨.still ⟨⟨0, rfl, rfl⟩, ⟨0, rfl, rfl⟩, rfl, rfl, rfl⟩ .nil, .nil⟩
  obtain ⟨r₀', hr₀', hmoved⟩ := hstart.handleAll
    (fun e he => h.whole e (List.mem_append_left _ he)) hr₀
    (fun inside n τ behind r₂ r₃ hsplit hinside hstep hlength => by
      have hmakes := makesCandidate_of_step hinside hstep hlength
      rw [foldl_movedAfter_zero]
      refine if_neg fun hmade => ?_
      obtain ⟨inside', n', τ', behind', rfl, hmakes', -⟩ := h.madeInBlock_iff.1 hmade
      -- two statements would make the same candidate
      have heq := hmakes.eq_of_split hmakes'
        (s := behind ++ (line, .statement "UiPush()".toList) ::
          (inside' ++ (n', .statement τ') :: behind'))
        (t := behind') (by rw [hsplit]; simp)
      have hlong := congrArg List.length heq
      rw [hsplit] at hlong
      simp at hlong)
    id
  have hsame : front.map (Prod.map id id) = front := by simp
  rw [hsame, hr₀] at hr₀'
  obtain rfl := Except.ok.inj hr₀'
  rwa [foldl_movedAfter_zero] at hmoved

/-- A move at the front of the block moves its context. -/
theorem exists_moved_inner {a b : ℤ} (ha : (decimalDigits a.natAbs).length ≤ digitLimit)
    (hb : (decimalDigits b.natAbs).length ≤ digitLimit) (n : ℕ) :
    ∃ c, ReaderState.step (bindingsOf (Text.lines text)) n r₀.push (moveText a b) =
        .ok { r₀.push with current := c } ∧ r₀.current.inner.Moved (a, b) c := by
  have hplace := (h.moved_front hr₀ (a, b)).contexts.head
  obtain ⟨i, hi, -⟩ := hplace.x
  obtain ⟨j, hj, -⟩ := hplace.y
  have hx : r₀.push.current.x = .int i := hi
  have hy : r₀.push.current.y = .int j := hj
  refine ⟨{ r₀.current.inner with x := .int (i + a), y := .int (j + b) }, ?_, ⟨i, hi, rfl⟩,
    ⟨j, hj, rfl⟩, rfl, rfl, rfl⟩
  rw [ReaderState.step_move_of_length ha hb, hx, hy]
  rfl

/-- Behind a move at the front of the block, the block is moved until it is closed. -/
theorem exists_moved_tail (δ : Distance)
    (hr : tail.foldlM (ReaderState.handle (bindingsOf (Text.lines text))) r₀.push = .ok r)
    {c : Context} (hc : r₀.current.inner.Moved δ c) :
    ∃ r' depth, (tail.map nextLine).foldlM (ReaderState.handle (bindingsOf (Text.lines text)))
        { r₀.push with current := c } = .ok r' ∧
      r.Moved δ (distanceIn text line δ) depth r' := by
  have hmoved := h.moved_front hr₀ δ
  have hinner : r₀.push.Moved δ (distanceIn text line δ) 1 { r₀.push with current := c } := by
    refine ⟨.moved hc ?_, hmoved.found⟩
    cases hmoved.contexts with
    | still hcurrent haround => exact .still hcurrent.outer haround
  obtain ⟨r', hr', hmoved'⟩ := hinner.handleAll
    (fun e he => h.whole e (List.mem_append_right _ he)) hr
    (fun inside n τ behind r₂ r₃ hsplit hinside hstep hlength => by
      have hread : (front ++ (line, .statement "UiPush()".toList) :: inside).foldlM
          (ReaderState.handle (bindingsOf (Text.lines text))) ReaderState.start = .ok r₂ := by
        rwa [ReaderState.foldlM_handle_append hr₀,
          ReaderState.foldlM_handle_cons ReaderState.step_push]
      have hmakes := makesCandidate_of_step hread hstep hlength
      by_cases hopen : (openAfter 1 (statementsOf inside)).isSome = true
      · rw [distanceAt_foldl_of_isSome hopen]
        exact if_pos (h.madeInBlock_iff.2 ⟨inside, n, τ, behind, hsplit, hmakes, hopen⟩)
      · rw [distanceAt_foldl_of_not_isSome hopen]
        refine if_neg fun hmade => ?_
        obtain ⟨inside', n', τ', behind', hsplit', hmakes', hopen'⟩ := h.madeInBlock_iff.1 hmade
        have heq := hmakes.eq_of_split hmakes' (s := behind) (t := behind')
          (by rw [List.append_assoc, List.cons_append, ← hsplit, List.append_assoc,
            List.cons_append, ← hsplit'])
        obtain ⟨-, rfl⟩ := List.cons.inj (List.append_cancel_left heq)
        exact hopen hopen')
    (· + 1)
  exact ⟨r', _, hr', hmoved'⟩

end OpensAt

/-! ## Scripts -/

/-- A line with an opening alone. -/
theorem ofLine_of_trim_eq_push {l : Line} (hl : trim l = "UiPush()".toList) :
    LineContent.ofLine l = .ok (.statements ["UiPush()".toList]) := by
  obtain ⟨front, back, heq, hfront, hback⟩ := exists_eq_trim l
  rw [heq, hl]
  exact LineContent.ofLine_statement hfront hback isStatement_opening

theorem ofLine_moveText (a b : ℤ) :
    LineContent.ofLine (moveText a b) = .ok (.statements [moveText a b]) := by
  have h := LineContent.ofLine_statement all_isBlank_nil all_isBlank_nil (isStatement_moveText a b)
  rwa [List.nil_append, List.append_nil] at h

/-- A move binds no name. -/
theorem bindingsOf_moveText (front : List Line) (a b : ℤ) (behind : List Line) :
    bindingsOf (front ++ moveText a b :: behind) = bindingsOf (front ++ behind) := by
  have hstatements : Lua.statements (moveText a b) = [moveText a b] := by
    have h := (isStatement_moveText a b).statements_eq all_isBlank_nil all_isBlank_nil
    rwa [List.nil_append, List.append_nil] at h
  simp only [bindingsOf, List.flatMap_append, List.flatMap_cons, hstatements, List.filterMap_append,
    List.filterMap_cons_none (inert_moveText a b).binds, List.filterMap_nil, List.nil_append]

section Insertion

variable {text : List Char} {before after : List Line} {l : Line}
  (hlines : Text.lines text = before ++ l :: after)

include hlines

/-- The lines of a script with a move put in. -/
theorem lines_withMove (a b : ℤ) :
    Text.lines (join ['\n'] (before ++ l :: moveText a b :: after)) =
      before ++ l :: moveText a b :: after := by
  refine lines_join (by simp) fun k hk => ?_
  have hold : ∀ k ∈ before ++ l :: after, '\n' ∉ k := hlines ▸ notMem_of_mem_split
  have hmove : '\n' ∉ moveText a b := (isStatement_moveText a b).flat.lineFeed
  simp only [List.mem_append, List.mem_cons] at hk hold
  grind

theorem bindingsOf_withMove (a b : ℤ) :
    bindingsOf (before ++ l :: moveText a b :: after) = bindingsOf (Text.lines text) := by
  have h := bindingsOf_moveText (before ++ [l]) a b after
  rwa [List.append_assoc, List.append_assoc, List.singleton_append, List.singleton_append,
    ← hlines] at h

/-- The events of a script with a line that opens a block. -/
theorem exists_opensAt (hl : trim l = "UiPush()".toList)
    (hwhole : ∀ σ ∈ (Text.lines text).flatMap Lua.statements,
      MovesWhole (bindingsOf (Text.lines text)) σ) {contents : List LineContent}
    (hall : List.Forall₂ (fun l content => LineContent.ofLine l = .ok content) (Text.lines text)
      contents) :
    ∃ cb ca, contents = cb ++ .statements ["UiPush()".toList] :: ca ∧
      List.Forall₂ (fun l content => LineContent.ofLine l = .ok content) before cb ∧
      List.Forall₂ (fun l content => LineContent.ofLine l = .ok content) after ca ∧
      OpensAt text (1 + cb.length) (numbered 1 cb) (numbered (1 + cb.length + 1) ca) := by
  have hevents := movesWhole_of_mem_numbered hall hwhole (n := 1)
  have hes : eventsOf text = .ok (numbered 1 contents) :=
    bind_eq_ok.2 ⟨contents, mapM_eq_ok_iff.2 hall, rfl⟩
  rw [hlines] at hall
  obtain ⟨cb, rest, rfl, hcb, hrest⟩ := exists_of_forall₂_append hall
  obtain ⟨content, ca, hcontent, hca, rfl⟩ := List.forall₂_cons_left_iff.1 hrest
  obtain rfl := Except.ok.inj ((ofLine_of_trim_eq_push hl).symm.trans hcontent)
  have hlength := hcb.length_eq
  rw [numbered_append_cons] at hes hevents
  refine ⟨cb, ca, rfl, hcb, hca, hes, fun e he => ?_, fun e he => ?_, fun e he => hevents e ?_⟩
  · have := mem_numbered hcb he
    omega
  · have := mem_numbered hca he
    omega
  · rcases List.mem_append.1 he with he | he
    · exact List.mem_append_left _ he
    · exact List.mem_append_right _ (List.mem_cons_of_mem _ he)

/-- A move put behind the opening of a block moves the candidates that are made in the block, and
leaves the others as they are. -/
theorem exists_moved_candidates (hl : trim l = "UiPush()".toList)
    (hwhole : ∀ σ ∈ (Text.lines text).flatMap Lua.statements,
      MovesWhole (bindingsOf (Text.lines text)) σ)
    {cs : List Candidate} (hcs : candidatesOf text = .ok cs) {a b : ℤ}
    (ha : (decimalDigits a.natAbs).length ≤ digitLimit)
    (hb : (decimalDigits b.natAbs).length ≤ digitLimit) :
    ∃ cs', candidatesOf (join ['\n'] (before ++ l :: moveText a b :: after)) = .ok cs' ∧
      cs'.length = cs.length ∧
      ∀ (k : ℕ) (c c' : Candidate), cs[k]? = some c → cs'[k]? = some c' →
        (MadeInBlock text (before.length + 1) k → c.Moved (a, b) c') ∧
        (¬ MadeInBlock text (before.length + 1) k → c'.unnumbered = c.unnumbered) := by
  obtain ⟨r, hr, hcs⟩ := bind_eq_ok.1 hcs
  obtain rfl := Except.ok.inj hcs
  obtain ⟨contents, hall, hfold⟩ := ReaderState.exists_contents_of_readLines hr
  obtain ⟨cb, ca, rfl, hcb, hca, hopens⟩ := exists_opensAt hlines hl hwhole hall
  -- the script is read up to the opening, and on from there
  rw [numbered_append_cons] at hfold
  obtain ⟨r₀, hr₀, hopening⟩ := ReaderState.handleAll_append hfold
  rw [ReaderState.foldlM_handle_cons ReaderState.step_push] at hopening
  obtain ⟨c, hmove, hc⟩ := hopens.exists_moved_inner hr₀ ha hb (1 + cb.length + 1)
  obtain ⟨r', depth, hr', hmoved⟩ := hopens.exists_moved_tail hr₀ (a, b) hopening hc
  -- the new script is read through the move
  have hnew : List.Forall₂ (fun l content => LineContent.ofLine l = .ok content)
      (before ++ l :: moveText a b :: after)
      (cb ++ .statements ["UiPush()".toList] :: .statements [moveText a b] :: ca) :=
    List.rel_append hcb (.cons (ofLine_of_trim_eq_push hl) (.cons (ofLine_moveText a b) hca))
  have hread : ReaderState.readLines (bindingsOf (Text.lines text)) 1 ReaderState.start
      (before ++ l :: moveText a b :: after) = .ok r' := by
    have hmiddle : numbered (1 + cb.length + 1) (.statements [moveText a b] :: ca) =
        (1 + cb.length + 1, .statement (moveText a b)) ::
          (numbered (1 + cb.length + 1) ca).map nextLine := by
      rw [← numbered_succ]
      rfl
    rwa [ReaderState.readLines_eq_foldlM hnew, numbered_append_cons, hmiddle,
      ReaderState.foldlM_handle_append hr₀, ReaderState.foldlM_handle_cons ReaderState.step_push,
      ReaderState.foldlM_handle_cons hmove]
  refine ⟨r'.found.reverse, ?_, ?_, fun k c c' hc hc' => ?_⟩
  · refine bind_eq_ok.2 ⟨r', ?_, rfl⟩
    rw [lines_withMove hlines, bindingsOf_withMove hlines]
    exact hread
  · rw [List.length_reverse, List.length_reverse, hmoved.found.length_eq]
  · have hck := hmoved.found.getElem?_reverse hc hc'
    rw [hcb.length_eq, Nat.add_comm]
    refine ⟨fun hmade => ?_, fun hmade => ?_⟩
    · rwa [distanceIn, if_pos hmade] at hck
    · rw [distanceIn, if_neg hmade] at hck
      exact hck.unnumbered_eq

end Insertion

/-- Lines in front of the opening of a block. -/
def shelfFront : List Line := ["UiPush()".toList, "UiRect(1, 1)".toList, "UiPop()".toList]

/-- The lines of the block, with a move and a block in it, and lines behind it. -/
def shelfBehind : List Line :=
  ["UiTranslate(5, 6)".toList, "UiPush()".toList, "UiRect(2, 2)".toList, "UiPop()".toList,
    "UiPop()".toList, "UiPush()".toList, "UiRect(3, 3)".toList]

/-- A script with three candidates, the second of them in a block within a block. -/
def shelfScript : List Char := join ['\n'] (shelfFront ++ "  UiPush()".toList :: shelfBehind)

theorem madeInBlock_shelfScript : MadeInBlock shelfScript 4 1 := by
  have hes : eventsOf shelfScript = .ok ([(1, .statement "UiPush()".toList),
      (2, .statement "UiRect(1, 1)".toList), (3, .statement "UiPop()".toList)] ++
      (4, .statement "UiPush()".toList) :: ([(5, .statement "UiTranslate(5, 6)".toList),
      (6, .statement "UiPush()".toList)] ++ (7, .statement "UiRect(2, 2)".toList) ::
      [(8, .statement "UiPop()".toList), (9, .statement "UiPop()".toList),
      (10, .statement "UiPush()".toList), (11, .statement "UiRect(3, 3)".toList)])) := by
    decide +kernel
  exact ⟨_, _, _, _, _, _, _, hes, rfl, by decide, by unfold MakesCandidate; decide +kernel,
    by decide⟩

/-- The candidate in the inner block is moved with the outer one. -/
theorem exists_moved_candidates_shelfScript : ∃ cs cs', candidatesOf shelfScript = .ok cs ∧
    cs.map (fun c => (c.x, c.y)) = [(0, 0), (5, 6), (0, 0)] ∧
    candidatesOf (join ['\n']
      (shelfFront ++ "  UiPush()".toList :: moveText 10 (-2) :: shelfBehind)) = .ok cs' ∧
    cs'.length = cs.length ∧
    ∀ c c', cs[1]? = some c → cs'[1]? = some c' → c.Moved (10, -2) c' := by
  have hplaces : (candidatesOf shelfScript).toOption.map (List.map fun c => (c.x, c.y)) =
      some [(0, 0), (5, 6), (0, 0)] := by
    decide +kernel
  obtain ⟨cs, hcs, hplaces⟩ := exists_of_toOption_map hplaces
  have hlines : Text.lines shelfScript = shelfFront ++ "  UiPush()".toList :: shelfBehind := by
    decide +kernel
  have hwhole : ∀ σ ∈ (Text.lines shelfScript).flatMap Lua.statements,
      MovesWhole (bindingsOf (Text.lines shelfScript)) σ := by
    decide +kernel
  obtain ⟨cs', hcs', hlength, hmoved⟩ := exists_moved_candidates (a := 10) (b := -2) hlines
    (by decide +kernel) hwhole hcs (by decide) (by decide)
  exact ⟨cs, cs', hcs, hplaces, hcs', hlength, fun c c' hc hc' =>
    (hmoved 1 c c' hc hc').1 madeInBlock_shelfScript⟩

end SceneScript
