import SceneScript.Proofs.Number.Sum
import SceneScript.Proofs.Script.Told

/-!
# The moves that lead to a place

A block starts where it is opened, and the moves in it are forgotten when it is closed. So a trail
of moves leads to wherever a script stands (`trailOf`), and the reader has added them up: in the
innermost block and in the ones around it. What it has found is one candidate for each statement
that is recognised in a block (`mentionsOf`), at the place that the moves lead to. Every step keeps
this (`ReaderState.Tracks`), and one fails only where the moves cannot be added up.

Main statement: what becomes of a reader along any events (`ReaderState.Tracks.handleAll`).
-/

namespace SceneScript

open Lua Text

/-! ## Trails -/

/-- How far a statement moves, if it does: as far as its first two arguments say, if both stand for
numbers. -/
def distance? (bindings : Lua.Bindings) (σ : List Char) : Option (Num × Num) :=
  match moveArguments? σ with
  | some (first :: second :: _) =>
    match resolveNumber bindings first, resolveNumber bindings second with
    | some dx, some dy => some (dx, dy)
    | _, _ => none
  | _ => none

/-- The moves that lead to where a script stands. -/
structure Trail where
  /-- Those that lead there in the innermost open block. -/
  current : List (Num × Num)
  /-- Those that lead to where each block around it goes on, from the inside out. -/
  around : List (List (Num × Num))

namespace Trail

/-- Outside all blocks, before any move. -/
def start : Trail := ⟨[], []⟩

/-- The trail behind a statement: a block starts where it is opened, what moved in it is forgotten
when it is closed, and outside all blocks nothing is closed. -/
def step (bindings : Lua.Bindings) (t : Trail) (σ : List Char) : Trail :=
  if opensBlock σ then ⟨t.current, t.current :: t.around⟩
  else if closesBlock σ then
    match t.around with
    | [] => t
    | moves :: around => ⟨moves, around⟩
  else ⟨t.current ++ (distance? bindings σ).toList, t.around⟩

end Trail

/-- The trail behind some events. -/
def trailOf (bindings : Lua.Bindings) (es : List (ℕ × Event)) : Trail :=
  (statementsOf es).foldl (Trail.step bindings) Trail.start

/-- Moves that can be added up, in both directions. -/
def Addable (moves : List (Num × Num)) : Prop :=
  Num.Addable (moves.map Prod.fst) ∧ Num.Addable (moves.map Prod.snd)

/-- That moves lead to a place: added up, they give its coordinates. -/
def LeadTo (moves : List (Num × Num)) (x y : Num) : Prop :=
  Num.total (moves.map Prod.fst) = .ok x ∧ Num.total (moves.map Prod.snd) = .ok y

variable {bindings : Lua.Bindings} {done : List (ℕ × Event)} {n : ℕ} {σ : List Char}
  {moves : List (Num × Num)} {x y : Num}

theorem LeadTo.addable (h : LeadTo moves x y) : Addable moves :=
  ⟨Num.exists_total_iff.1 ⟨x, h.1⟩, Num.exists_total_iff.1 ⟨y, h.2⟩⟩

theorem trailOf_marker (done : List (ℕ × Event)) (n : ℕ) (m : Marker) :
    trailOf bindings (done ++ [(n, .marker m)]) = trailOf bindings done := by
  rw [trailOf, statementsOf_append]
  exact congrArg _ (List.append_nil _)

theorem trailOf_statement (done : List (ℕ × Event)) (n : ℕ) (σ : List Char) :
    trailOf bindings (done ++ [(n, .statement σ)]) = (trailOf bindings done).step bindings σ := by
  rw [trailOf, statementsOf_append, List.foldl_append]
  rfl

theorem distance?_of_none (h : moveArguments? σ = none) : distance? bindings σ = none := by
  rw [distance?, h]

/-! ## Moving on -/

/-- A context moves as far as the statement says. -/
theorem move_of_moveArguments? (c : Context) {arguments : List (List Char)}
    (harguments : moveArguments? σ = some arguments) :
    c.move bindings arguments =
      match distance? bindings σ with
      | some d => do
        let x ← c.x.add d.1
        let y ← c.y.add d.2
        return { c with x := x, y := y, awaiting? := none }
      | none => .ok { c with awaiting? := none } := by
  unfold Context.move
  rw [distance?, harguments]
  rcases arguments with _ | ⟨first, _ | ⟨second, rest⟩⟩
  · rfl
  · rfl
  · dsimp only
    cases resolveNumber bindings first <;> cases resolveNumber bindings second <;> rfl

/-- A move leads on, or the moves cannot be added up any more. -/
theorem LeadTo.move {c : Context} (h : LeadTo moves c.x c.y) {arguments : List (List Char)}
    (harguments : moveArguments? σ = some arguments) :
    (∃ c', c.move bindings arguments = .ok c' ∧
      LeadTo (moves ++ (distance? bindings σ).toList) c'.x c'.y) ∨
    (c.move bindings arguments = .error .integerTooLarge ∧
      ¬ Addable (moves ++ (distance? bindings σ).toList)) := by
  rw [move_of_moveArguments? c harguments]
  cases distance? bindings σ with
  | none => exact .inl ⟨_, rfl, by simpa using h⟩
  | some d =>
    have hfst : (moves ++ [d]).map Prod.fst = moves.map Prod.fst ++ [d.1] := List.map_append
    have hsnd : (moves ++ [d]).map Prod.snd = moves.map Prod.snd ++ [d.2] := List.map_append
    dsimp only [Option.toList_some]
    rcases Num.add_of_total h.1 d.1 with ⟨x, hx, htotal⟩ | ⟨hx, hadd⟩
    · rcases Num.add_of_total h.2 d.2 with ⟨y, hy, htotal'⟩ | ⟨hy, hadd⟩
      · refine .inl ⟨{ c with x := x, y := y, awaiting? := none }, ?_, ?_, ?_⟩
        · rw [hx, hy]
          rfl
        · rw [hfst, htotal]
        · rw [hsnd, htotal']
      · refine .inr ⟨?_, fun h => hadd (hsnd ▸ h.2)⟩
        rw [hx, hy]
        rfl
    · refine .inr ⟨?_, fun h => hadd (hfst ▸ h.1)⟩
      rw [hx]
      rfl

/-! ## Mentions -/

/-- A mention of an element: a statement that is recognised, and the moves that lead there. -/
structure Mention where
  /-- The line of the statement. -/
  line : ℕ
  /-- The shape that it has. -/
  shape : Shape
  /-- The statement as one of that shape. -/
  call : Call
  /-- The moves that lead there. -/
  moves : List (Num × Num)

/-- The mention that a statement is, if it is one: it stands in a block, neither opens nor closes
one nor moves, and is recognised. -/
def Trail.mention? (t : Trail) (n : ℕ) (σ : List Char) : Option Mention :=
  if t.around.isEmpty || opensBlock σ || closesBlock σ || (moveArguments? σ).isSome then none
  else (matchStatement? σ).map fun p => ⟨n, p.1, p.2, t.current⟩

/-- The mentions in some events, from a trail on. -/
def mentionsFrom (bindings : Lua.Bindings) : Trail → List (ℕ × Event) → List Mention
  | _, [] => []
  | t, (_, .marker _) :: es => mentionsFrom bindings t es
  | t, (n, .statement σ) :: es =>
    (t.mention? n σ).toList ++ mentionsFrom bindings (t.step bindings σ) es

/-- The mentions in some events, in order. -/
def mentionsOf (bindings : Lua.Bindings) (es : List (ℕ × Event)) : List Mention :=
  mentionsFrom bindings Trail.start es

theorem mentionsFrom_append (t : Trail) (es es' : List (ℕ × Event)) :
    mentionsFrom bindings t (es ++ es') = mentionsFrom bindings t es ++
      mentionsFrom bindings ((statementsOf es).foldl (Trail.step bindings) t) es' := by
  induction es generalizing t with
  | nil => rfl
  | cons e es ih =>
    obtain ⟨n, m | σ⟩ := e
    · exact ih t
    · rw [List.cons_append, mentionsFrom, mentionsFrom, ih, List.append_assoc]
      rfl

theorem mentionsOf_marker (done : List (ℕ × Event)) (n : ℕ) (m : Marker) :
    mentionsOf bindings (done ++ [(n, .marker m)]) = mentionsOf bindings done := by
  rw [mentionsOf, mentionsFrom_append]
  exact List.append_nil _

theorem mentionsOf_statement (done : List (ℕ × Event)) (n : ℕ) (σ : List Char) :
    mentionsOf bindings (done ++ [(n, .statement σ)]) =
      mentionsOf bindings done ++ ((trailOf bindings done).mention? n σ).toList := by
  rw [mentionsOf, mentionsFrom_append]
  exact congrArg _ (List.append_nil _)

/-- That a mention tells a candidate: the moves lead to its place, and it has what the statement
tells, and the defaults for the rest. -/
structure Mention.Tells (bindings : Lua.Bindings) (m : Mention) (c : Candidate) : Prop where
  shape : m.shape ∈ shapes
  line : c.line = (m.line : ℤ)
  place : LeadTo m.moves c.x c.y
  fills : c.Fills bindings m.shape m.call

theorem Mention.Tells.withHandler {m : Mention} {c : Candidate} (h : m.Tells bindings c)
    (shape : Shape) (handler? : Option (List Char)) :
    m.Tells bindings (c.withHandler shape handler?) := by
  have hfills := h.fills.withHandler h.shape shape handler?
  obtain ⟨props, heq⟩ := c.exists_withHandler_eq shape handler?
  rw [heq] at hfills ⊢
  exact ⟨h.shape, h.line, h.place, hfills⟩

/-- A statement makes a candidate where it stands. -/
theorem Candidate.place_ofCall (bindings : Lua.Bindings) (shape : Shape) (call : Call)
    (marker? : Option Marker) (x y : Num) (line : ℕ) :
    (ofCall bindings shape call marker? x y line).x = x ∧
      (ofCall bindings shape call marker? x y line).y = y ∧
      (ofCall bindings shape call marker? x y line).line = (line : ℤ) := by
  obtain ⟨c, hx, hy, hline, heq⟩ : ∃ c : Candidate, c.x = x ∧ c.y = y ∧ c.line = (line : ℤ) ∧
      ofCall bindings shape call marker? x y line =
        c.withHandler shape (shape.extract bindings call).handler? := ⟨_, rfl, rfl, rfl, rfl⟩
  obtain ⟨props, hprops⟩ := c.exists_withHandler_eq shape (shape.extract bindings call).handler?
  rw [heq, hprops]
  exact ⟨hx, hy, hline⟩

/-! ## The reader -/

namespace ReaderState

/-- The contexts of the reader are where the moves lead, and its candidates are what the events
mention. A slider whose handler may follow was recognised. -/
structure Tracks (bindings : Lua.Bindings) (done : List (ℕ × Event)) (r : ReaderState) : Prop where
  current : LeadTo (trailOf bindings done).current r.current.x r.current.y
  around : List.Forall₂ (fun moves c => LeadTo moves c.x c.y) (trailOf bindings done).around
    r.around
  found : List.Forall₂ (Mention.Tells bindings) (mentionsOf bindings done).reverse r.found
  awaiting : ∀ c ∈ r.current :: r.around, ∀ p, c.awaiting? = some p →
    ∃ σ, matchStatement? σ = some p

theorem tracks_start (bindings : Lua.Bindings) : start.Tracks bindings [] :=
  ⟨⟨rfl, rfl⟩, .nil, .nil, by simp [start, Context.start]⟩

namespace Tracks

variable {r : ReaderState} (h : r.Tracks bindings done)

include h

theorem mark (m : Marker) : (r.mark m).Tracks bindings (done ++ [(n, .marker m)]) := by
  refine ⟨?_, ?_, ?_, ?_⟩
  · rw [trailOf_marker]
    exact h.current
  · rw [trailOf_marker]
    exact h.around
  · rw [mentionsOf_marker]
    exact h.found
  · rw [List.forall_mem_cons]
    exact List.forall_mem_cons.1 h.awaiting

/-- A statement that is no mention leaves the mentions as they are. -/
theorem found_of_mention?_eq_none (hmention : (trailOf bindings done).mention? n σ = none) :
    List.Forall₂ (Mention.Tells bindings)
      (mentionsOf bindings (done ++ [(n, .statement σ)])).reverse r.found := by
  rw [mentionsOf_statement, hmention, Option.toList_none, List.append_nil]
  exact h.found

theorem push (hopens : opensBlock σ = true) :
    r.push.Tracks bindings (done ++ [(n, .statement σ)]) := by
  refine ⟨?_, ?_, h.found_of_mention?_eq_none (by simp [Trail.mention?, hopens]), ?_⟩
  · rw [trailOf_statement, Trail.step, if_pos hopens]
    exact h.current
  · rw [trailOf_statement, Trail.step, if_pos hopens]
    exact .cons h.current h.around
  · simp only [ReaderState.push, Context.inner, Context.outer, List.forall_mem_cons]
    exact ⟨by simp, by simp, (List.forall_mem_cons.1 h.awaiting).2⟩

theorem pop (hopens : opensBlock σ = false) (hcloses : closesBlock σ = true) :
    r.pop.Tracks bindings (done ++ [(n, .statement σ)]) := by
  have hfound := h.found_of_mention?_eq_none (n := n) (σ := σ) (by simp [Trail.mention?, hcloses])
  have htrail : trailOf bindings (done ++ [(n, .statement σ)]) =
      match (trailOf bindings done).around with
      | [] => trailOf bindings done
      | moves :: around => ⟨moves, around⟩ := by
    rw [trailOf_statement, Trail.step, if_neg (by simp [hopens]), if_pos hcloses]
  have haround := h.around
  have hawaiting := h.awaiting
  unfold ReaderState.pop
  cases hr : r.around with
  | nil =>
    rw [hr] at haround
    rw [List.forall₂_nil_right_iff.1 haround] at htrail
    exact ⟨htrail ▸ h.current, htrail ▸ h.around, hfound, hawaiting⟩
  | cons c cs =>
    rw [hr] at haround hawaiting
    cases ht : (trailOf bindings done).around with
    | nil =>
      rw [ht] at haround
      cases haround
    | cons moves around =>
      rw [ht] at haround htrail
      cases haround with
      | cons hc hcs =>
        exact ⟨htrail ▸ hc, htrail ▸ hcs, hfound, (List.forall_mem_cons.1 hawaiting).2⟩

/-- A statement that neither opens nor closes a block nor moves stays in place. -/
theorem stay (hopens : opensBlock σ = false) (hcloses : closesBlock σ = false)
    (hmove : moveArguments? σ = none) {c : Context} (hx : c.x = r.current.x)
    (hy : c.y = r.current.y)
    (hawaiting : ∀ p, c.awaiting? = some p → ∃ σ, matchStatement? σ = some p)
    {found : List Candidate}
    (hfound : List.Forall₂ (Mention.Tells bindings)
      (mentionsOf bindings (done ++ [(n, .statement σ)])).reverse found) :
    (⟨c, r.around, found⟩ : ReaderState).Tracks bindings (done ++ [(n, .statement σ)]) := by
  have htrail : trailOf bindings (done ++ [(n, .statement σ)]) = trailOf bindings done := by
    rw [trailOf_statement, Trail.step, if_neg (by simp [hopens]), if_neg (by simp [hcloses]),
      distance?_of_none hmove, Option.toList_none, List.append_nil]
  refine ⟨?_, ?_, hfound,
    List.forall_mem_cons.2 ⟨hawaiting, (List.forall_mem_cons.1 h.awaiting).2⟩⟩
  · rw [htrail]
    change LeadTo _ c.x c.y
    rw [hx, hy]
    exact h.current
  · rw [htrail]
    exact h.around

theorem recognize (hopens : opensBlock σ = false) (hcloses : closesBlock σ = false)
    (hmove : moveArguments? σ = none) (haround : r.around ≠ []) :
    (r.recognize bindings n σ).Tracks bindings (done ++ [(n, .statement σ)]) := by
  have hcurrent := (List.forall_mem_cons.1 h.awaiting).1
  have hinside : (trailOf bindings done).around.isEmpty = false := by
    have := h.around.length_eq
    rw [List.isEmpty_eq_false_iff, ← List.length_pos_iff, this, List.length_pos_iff]
    exact haround
  have hmention : (trailOf bindings done).mention? n σ =
      (matchStatement? σ).map fun p => ⟨n, p.1, p.2, (trailOf bindings done).current⟩ := by
    simp [Trail.mention?, hinside, hopens, hcloses, hmove]
  unfold ReaderState.recognize
  cases hmatch : matchStatement? σ with
  | none =>
    rw [hmatch] at hmention
    exact h.stay hopens hcloses hmove rfl rfl hcurrent (h.found_of_mention?_eq_none hmention)
  | some p =>
    obtain ⟨shape, call⟩ := p
    rw [hmatch] at hmention
    obtain ⟨hx, hy, hline⟩ := Candidate.place_ofCall bindings shape call r.current.carried?
      r.current.x r.current.y n
    have hs := Shape.mem_of_matchStatement? hmatch
    refine h.stay (c := { r.current with carried? := none, awaiting? := _ }) hopens hcloses hmove
      rfl rfl (fun p hp => ?_) ?_
    · dsimp only at hp
      split at hp
      · exact ⟨σ, hmatch.trans hp⟩
      · exact hcurrent p hp
    · rw [mentionsOf_statement, hmention, List.reverse_append]
      refine .cons ⟨hs, hline, ?_, Candidate.fills_ofCall hs ..⟩ h.found
      rw [hx, hy]
      exact h.current

theorem enter (hopens : opensBlock σ = false) (hcloses : closesBlock σ = false)
    (hmove : moveArguments? σ = none) (haround : r.around ≠ []) :
    (r.enter bindings n σ).Tracks bindings (done ++ [(n, .statement σ)]) := by
  unfold ReaderState.enter
  split
  · exact h.recognize hopens hcloses hmove haround
  · next shape call hawaiting =>
    have hidle : ({ r with current := { r.current with awaiting? := none } }
        : ReaderState).Tracks bindings done :=
      ⟨h.current, h.around, h.found,
        List.forall_mem_cons.2 ⟨by simp, (List.forall_mem_cons.1 h.awaiting).2⟩⟩
    dsimp only
    split
    · next handler hhandler =>
      -- what calls the handler is no mention itself, for the slider assigns to identifiers
      obtain ⟨τ, hτ⟩ := (List.forall_mem_cons.1 h.awaiting).1 _ hawaiting
      have hnone := Shape.matchStatement?_of_followUpHandler?
        (Shape.isIdentifier_of_mem_targets (Shape.recognize?_of_matchStatement? hτ)) hhandler
      have hfound := h.found_of_mention?_eq_none (n := n) (σ := σ)
        (by simp [Trail.mention?, hnone])
      unfold giveHandler
      split
      · exact hidle.stay hopens hcloses hmove rfl rfl (by simp) hfound
      · next c cs hcs =>
        dsimp only at hcs
        rw [hcs] at hfound
        refine hidle.stay hopens hcloses hmove rfl rfl (by simp) ?_
        generalize (mentionsOf bindings (done ++ [(n, .statement σ)])).reverse = mentions at hfound
        cases hfound with
        | cons hc hrest => exact .cons (hc.withHandler _ _) hrest
    · exact hidle.recognize hopens hcloses hmove haround

/-- A statement is read on the trail, unless it moves and the moves cannot be added up any more. -/
theorem step (n : ℕ) (σ : List Char) :
    (∃ r', r.step bindings n σ = .ok r' ∧ r'.Tracks bindings (done ++ [(n, .statement σ)])) ∨
    (r.step bindings n σ = .error .integerTooLarge ∧
      ¬ Addable (trailOf bindings (done ++ [(n, .statement σ)])).current) := by
  unfold ReaderState.step
  split
  · next hopens => exact .inl ⟨_, rfl, h.push hopens⟩
  · next hopens =>
    rw [Bool.not_eq_true] at hopens
    split
    · next hcloses => exact .inl ⟨_, rfl, h.pop hopens hcloses⟩
    · next hcloses =>
      rw [Bool.not_eq_true] at hcloses
      cases hmove : moveArguments? σ with
      | none =>
        refine .inl ⟨_, rfl, ?_⟩
        split
        · next hempty =>
          have houtside : (trailOf bindings done).around = [] := by
            have := h.around
            rw [List.isEmpty_iff.1 hempty] at this
            exact List.forall₂_nil_right_iff.1 this
          exact h.stay hopens hcloses hmove rfl rfl (List.forall_mem_cons.1 h.awaiting).1
            (h.found_of_mention?_eq_none (by simp [Trail.mention?, houtside]))
        · next hopen =>
          exact h.enter hopens hcloses hmove fun hnil => hopen (by rw [hnil]; rfl)
      | some arguments =>
        have htrail : trailOf bindings (done ++ [(n, .statement σ)]) =
            ⟨(trailOf bindings done).current ++ (distance? bindings σ).toList,
              (trailOf bindings done).around⟩ := by
          rw [trailOf_statement, Trail.step, if_neg (by simp [hopens]), if_neg (by simp [hcloses])]
        dsimp only
        rcases h.current.move hmove with ⟨c, hc, hlead⟩ | ⟨hc, hadd⟩
        · refine .inl ⟨{ r with current := c }, by rw [hc]; rfl, ?_, ?_,
            h.found_of_mention?_eq_none (by simp [Trail.mention?, hmove]), ?_⟩
          · rw [htrail]
            exact hlead
          · rw [htrail]
            exact h.around
          · refine List.forall_mem_cons.2 ⟨?_, (List.forall_mem_cons.1 h.awaiting).2⟩
            rw [awaiting?_move hc]
            simp
        · refine .inr ⟨by rw [hc]; rfl, ?_⟩
          rw [htrail]
          exact hadd

theorem handle (e : ℕ × Event) :
    (∃ r', r.handle bindings e = .ok r' ∧ r'.Tracks bindings (done ++ [e])) ∨
    (r.handle bindings e = .error .integerTooLarge ∧
      ¬ Addable (trailOf bindings (done ++ [e])).current) := by
  obtain ⟨n, m | σ⟩ := e
  · exact .inl ⟨_, rfl, h.mark m⟩
  · exact h.step n σ

/-- Events are read on the trail up to the first place to which the moves cannot be added up. -/
theorem handleAll (es : List (ℕ × Event)) :
    (∃ r', es.foldlM (ReaderState.handle bindings) r = .ok r' ∧ r'.Tracks bindings (done ++ es) ∧
      ∀ before, before <+: es → Addable (trailOf bindings (done ++ before)).current) ∨
    (es.foldlM (ReaderState.handle bindings) r = .error .integerTooLarge ∧
      ∃ before, before <+: es ∧ ¬ Addable (trailOf bindings (done ++ before)).current) := by
  induction es generalizing done r with
  | nil =>
    refine .inl ⟨r, rfl, by rwa [List.append_nil], fun before hbefore => ?_⟩
    rw [List.prefix_nil.1 hbefore, List.append_nil]
    exact h.current.addable
  | cons e es ih =>
    rw [List.foldlM_cons]
    have happend : ∀ es', done ++ [e] ++ es' = done ++ e :: es' := by simp
    rcases h.handle e with ⟨r₁, hr₁, htracks⟩ | ⟨herror, hadd⟩
    · rw [hr₁]
      rcases ih htracks with ⟨r', hr', htracks', hall⟩ | ⟨herror, before, hbefore, hadd⟩
      · refine .inl ⟨r', hr', happend es ▸ htracks', fun before hbefore => ?_⟩
        rcases List.prefix_cons_iff.1 hbefore with rfl | ⟨before', rfl, hbefore'⟩
        · rw [List.append_nil]
          exact h.current.addable
        · exact happend before' ▸ hall before' hbefore'
      · refine .inr ⟨herror, e :: before, List.cons_prefix_cons.2 ⟨rfl, hbefore⟩, ?_⟩
        exact happend before ▸ hadd
    · exact .inr ⟨by rw [herror]; rfl, [e], by simp, hadd⟩

end Tracks

end ReaderState

end SceneScript
