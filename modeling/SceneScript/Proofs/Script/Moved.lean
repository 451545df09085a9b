import SceneScript.Proofs.Script.Numbering

/-!
# Reading in moved contexts

The place of a context is added to, handed on to the blocks inside, and given to candidates; nothing
else is decided by it. So a reader whose innermost contexts are moved by a distance stays that
reader along any statements (`ReaderState.Moved`): a block that is opened in a moved context is
moved, a block that is closed uncovers the context around it, and a candidate is moved when the
context is in which it is found. Both readers succeed, as long as the script moves by whole numbers
(`MovesWhole`), whose sums are exact.

Main statement: what a moved reader finds, statement by statement (`ReaderState.Moved.handleAll`).
-/

namespace SceneScript

open Lua Text

/-! ## Whole moves -/

/-- A statement moves by whole numbers, if it moves: what its arguments stand for is whole. -/
def MovesWhole (bindings : Lua.Bindings) (σ : List Char) : Prop :=
  ∀ arguments ∈ moveArguments? σ, ∀ token ∈ arguments, ∀ v ∈ resolveNumber bindings token,
    ∃ n : ℤ, v = .int n

instance Num.decidableIsInt : (v : Num) → Decidable (∃ n : ℤ, v = .int n)
  | .int n => isTrue ⟨n, rfl⟩
  | .double _ => isFalse fun ⟨_, h⟩ => nomatch h

instance (bindings : Lua.Bindings) (σ : List Char) : Decidable (MovesWhole bindings σ) :=
  inferInstanceAs (Decidable (∀ arguments ∈ moveArguments? σ, ∀ token ∈ arguments,
    ∀ v ∈ resolveNumber bindings token, ∃ n : ℤ, v = .int n))

/-- A whole number is another one with a distance added. -/
def Num.MovedBy (d : ℤ) (v v' : Num) : Prop := ∃ n : ℤ, v = .int n ∧ v' = .int (n + d)

theorem Num.MovedBy.add {d : ℤ} {v v' w : Num} (h : v.MovedBy d v') {n : ℤ} {dv : Num}
    (hdv : dv = .int n) (hw : v.add dv = .ok w) : ∃ w', v'.add dv = .ok w' ∧ w.MovedBy d w' := by
  obtain ⟨k, rfl, rfl⟩ := h
  subst hdv
  obtain rfl := Except.ok.inj hw
  exact ⟨_, rfl, k + n, rfl, by rw [add_right_comm]⟩

/-! ## Contexts -/

/-- A distance, in both directions. -/
abbrev Distance := ℤ × ℤ

/-- A context is another one at a distance. -/
structure Context.Moved (δ : Distance) (c c' : Context) : Prop where
  x : c.x.MovedBy δ.1 c'.x
  y : c.y.MovedBy δ.2 c'.y
  pending : c'.pending? = c.pending?
  carried : c'.carried? = c.carried?
  awaiting : c'.awaiting? = c.awaiting?

namespace Context.Moved

variable {δ : Distance} {c c' : Context} (h : c.Moved δ c')

include h

theorem inner : c.inner.Moved δ c'.inner := ⟨h.x, h.y, rfl, h.pending, rfl⟩

theorem outer : c.outer.Moved δ c'.outer := ⟨h.x, h.y, rfl, h.carried, rfl⟩

/-- A move by whole numbers goes as far in both contexts. -/
theorem move {bindings : Lua.Bindings} {arguments : List (List Char)}
    (hwhole : ∀ token ∈ arguments, ∀ v ∈ resolveNumber bindings token, ∃ n : ℤ, v = .int n)
    {c₁ : Context} (hc : c.move bindings arguments = .ok c₁) :
    ∃ c₁', c'.move bindings arguments = .ok c₁' ∧ c₁.Moved δ c₁' := by
  have hidle : ∃ c₁', Except.ok { c' with awaiting? := none } = Except.ok (ε := NumberError) c₁' ∧
      Context.Moved δ { c with awaiting? := none } c₁' :=
    ⟨_, rfl, h.x, h.y, h.pending, h.carried, rfl⟩
  unfold Context.move at hc ⊢
  dsimp only at hc ⊢
  split at hc
  · next first second rest =>
    split at hc
    · next dx dy hdx hdy =>
      obtain ⟨x, hx, hc⟩ := bind_eq_ok.1 hc
      obtain ⟨y, hy, hc⟩ := bind_eq_ok.1 hc
      obtain rfl := Except.ok.inj hc
      obtain ⟨i, hi⟩ := hwhole first (by simp) dx hdx
      obtain ⟨j, hj⟩ := hwhole second (by simp) dy hdy
      obtain ⟨x', hx', hxmoved⟩ := h.x.add hi hx
      obtain ⟨y', hy', hymoved⟩ := h.y.add hj hy
      refine ⟨{ c' with x := x', y := y', awaiting? := none }, ?_, hxmoved, hymoved, h.pending,
        h.carried, rfl⟩
      rw [hx', hy']
      rfl
    · obtain rfl := Except.ok.inj hc
      exact hidle
  · obtain rfl := Except.ok.inj hc
    exact hidle

end Context.Moved

/-- The distance of the innermost of some contexts, of which so many are moved. -/
def distanceAt (δ : Distance) : ℕ → Distance
  | 0 => (0, 0)
  | _ + 1 => δ

/-- Contexts of which so many, the innermost ones, are moved, and the others are not. The context
outside all blocks is not moved. -/
inductive ContextsMoved (δ : Distance) : ℕ → List Context → List Context → Prop
  | still {c c' : Context} {cs cs' : List Context} (hc : c.Moved (0, 0) c')
      (hcs : List.Forall₂ (Context.Moved (0, 0)) cs cs') : ContextsMoved δ 0 (c :: cs) (c' :: cs')
  | moved {depth : ℕ} {c c' : Context} {cs cs' : List Context} (hc : c.Moved δ c')
      (hcs : ContextsMoved δ depth cs cs') : ContextsMoved δ (depth + 1) (c :: cs) (c' :: cs')

namespace ContextsMoved

variable {δ : Distance} {depth : ℕ} {c c' : Context} {cs cs' : List Context}

theorem length_eq {cs cs' : List Context} (h : ContextsMoved δ depth cs cs') :
    cs.length = cs'.length := by
  induction h with
  | still _ hcs => rw [List.length_cons, List.length_cons, hcs.length_eq]
  | moved _ _ ih => rw [List.length_cons, List.length_cons, ih]

variable (h : ContextsMoved δ depth (c :: cs) (c' :: cs'))

include h

theorem head : c.Moved (distanceAt δ depth) c' := by
  cases h with
  | still hc _ => exact hc
  | moved hc _ => exact hc

theorem replace {b b' : Context} (hb : b.Moved (distanceAt δ depth) b') :
    ContextsMoved δ depth (b :: cs) (b' :: cs') := by
  cases h with
  | still _ hcs => exact .still hb hcs
  | moved _ hcs => exact .moved hb hcs

/-- A block that is opened in a moved context is moved. -/
theorem push : ContextsMoved δ (if depth = 0 then 0 else depth + 1) (c.inner :: c.outer :: cs)
    (c'.inner :: c'.outer :: cs') := by
  cases h with
  | still hc hcs => exact .still hc.inner (.cons hc.outer hcs)
  | moved hc hcs => exact .moved hc.inner (.moved hc.outer hcs)

/-- Behind a block the contexts around it are left. -/
theorem pop (hne : cs ≠ []) : ContextsMoved δ (depth - 1) cs cs' := by
  cases h with
  | still _ hcs =>
    cases hcs with
    | nil => exact absurd rfl hne
    | cons hc hcs => exact .still hc hcs
  | moved _ hcs => exact hcs

/-- Outside all blocks nothing is moved. -/
theorem depth_eq_zero (hnil : cs = []) : depth = 0 := by
  subst hnil
  cases h with
  | still _ _ => rfl
  | moved _ hcs => cases hcs

end ContextsMoved

/-! ## Candidates -/

/-- A candidate is another one at a distance, maybe on another line. -/
structure Candidate.Moved (δ : Distance) (c c' : Candidate) : Prop where
  x : c.x.MovedBy δ.1 c'.x
  y : c.y.MovedBy δ.2 c'.y
  rest : c' = { c with x := c'.x, y := c'.y, line := c'.line }

namespace Candidate.Moved

variable {δ : Distance}

theorem withHandler {c c' : Candidate} (h : c.Moved δ c') (shape : Shape)
    (handler? : Option (List Char)) :
    (c.withHandler shape handler?).Moved δ (c'.withHandler shape handler?) := by
  obtain ⟨x, y, line, rfl⟩ : ∃ x y line, c' = { c with x := x, y := y, line := line } :=
    ⟨_, _, _, h.rest⟩
  unfold Candidate.withHandler
  cases shape.handler? with
  | none => exact h
  | some key =>
    cases handler? with
    | none => exact h
    | some handler =>
      have hderives : Candidate.derives { c with x := x, y := y, line := line } key handler =
          c.derives key handler := rfl
      dsimp only
      rw [hderives]
      split
      · exact h
      · exact ⟨h.x, h.y, rfl⟩

theorem ofCall {x x' y y' : Num} (hx : x.MovedBy δ.1 x') (hy : y.MovedBy δ.2 y')
    (bindings : Lua.Bindings) (shape : Shape) (call : Call) (marker? : Option Marker)
    (line line' : ℕ) : (Candidate.ofCall bindings shape call marker? x y line).Moved δ
      (Candidate.ofCall bindings shape call marker? x' y' line') :=
  Moved.withHandler ⟨hx, hy, rfl⟩ _ _

/-- A candidate at no distance is the same one, maybe on another line. -/
theorem unnumbered_eq {c c' : Candidate} (h : c.Moved (0, 0) c') :
    c'.unnumbered = c.unnumbered := by
  obtain ⟨i, hx, hx'⟩ := h.x
  obtain ⟨j, hy, hy'⟩ := h.y
  rw [add_zero] at hx' hy'
  rw [h.rest, hx'.trans hx.symm, hy'.trans hy.symm]
  rfl

end Candidate.Moved

/-- Candidates, the newest first, each of them at the distance for its index. -/
inductive FoundMoved (distance : ℕ → Distance) : List Candidate → List Candidate → Prop
  | nil : FoundMoved distance [] []
  | cons {c c' : Candidate} {cs cs' : List Candidate} (hc : c.Moved (distance cs.length) c')
      (hcs : FoundMoved distance cs cs') : FoundMoved distance (c :: cs) (c' :: cs')

namespace FoundMoved

variable {distance : ℕ → Distance} {cs cs' : List Candidate}

theorem length_eq (h : FoundMoved distance cs cs') : cs.length = cs'.length := by
  induction h with
  | nil => rfl
  | cons _ _ ih => rw [List.length_cons, List.length_cons, ih]

/-- In the order of the script a candidate stands at its index. -/
theorem getElem?_reverse (h : FoundMoved distance cs cs') {k : ℕ} {c c' : Candidate}
    (hc : cs.reverse[k]? = some c) (hc' : cs'.reverse[k]? = some c') :
    c.Moved (distance k) c' := by
  induction h with
  | nil => cases hc
  | @cons d d' ds ds' hd hds ih =>
    rw [List.reverse_cons] at hc hc'
    have hlength : ds'.reverse.length = ds.reverse.length := by simp [hds.length_eq]
    rcases lt_trichotomy k ds.reverse.length with hk | rfl | hk
    · rw [List.getElem?_append_left hk] at hc
      rw [List.getElem?_append_left (hlength ▸ hk)] at hc'
      exact ih hc hc'
    · rw [List.getElem?_concat_length] at hc
      rw [← hlength, List.getElem?_concat_length] at hc'
      obtain rfl := Option.some.inj hc
      obtain rfl := Option.some.inj hc'
      rwa [List.length_reverse]
    · rw [List.getElem?_eq_none (by rw [List.length_append, List.length_singleton]; omega)] at hc
      cases hc

end FoundMoved

/-! ## Readers -/

/-- How many contexts are moved behind a statement. -/
def movedAfter (depth : ℕ) (σ : List Char) : ℕ :=
  if opensBlock σ then (if depth = 0 then 0 else depth + 1)
  else if closesBlock σ then depth - 1
  else depth

namespace ReaderState

/-- A reader is another one of whose contexts so many are moved, with the candidates that it has
found each at the distance for its index. -/
structure Moved (δ : Distance) (distance : ℕ → Distance) (depth : ℕ) (r r' : ReaderState) :
    Prop where
  contexts : ContextsMoved δ depth (r.current :: r.around) (r'.current :: r'.around)
  found : FoundMoved distance r.found r'.found

namespace Moved

variable {δ : Distance} {distance : ℕ → Distance} {depth : ℕ} {r r' : ReaderState}
  {bindings : Lua.Bindings} {n n' : ℕ} {σ : List Char} (h : r.Moved δ distance depth r')

include h

theorem isEmpty_around_eq : r'.around.isEmpty = r.around.isEmpty := by
  have hlength := h.contexts.length_eq
  rw [List.length_cons, List.length_cons, Nat.add_right_cancel_iff] at hlength
  rw [Bool.eq_iff_iff, List.isEmpty_iff_length_eq_zero, List.isEmpty_iff_length_eq_zero, hlength]

theorem replace {c c' : Context} (hc : c.Moved (distanceAt δ depth) c') :
    Moved δ distance depth { r with current := c } { r' with current := c' } :=
  ⟨h.contexts.replace hc, h.found⟩

theorem mark (m : Marker) : (r.mark m).Moved δ distance depth (r'.mark m) :=
  have hc := h.contexts.head
  h.replace ⟨hc.x, hc.y, rfl, hc.carried, hc.awaiting⟩

theorem push : r.push.Moved δ distance (if depth = 0 then 0 else depth + 1) r'.push :=
  ⟨h.contexts.push, h.found⟩

theorem pop : r.pop.Moved δ distance (depth - 1) r'.pop := by
  obtain ⟨c, around, found⟩ := r
  obtain ⟨c', around', found'⟩ := r'
  have hlength := h.contexts.length_eq
  cases around with
  | nil =>
    obtain rfl : around' = [] := by simpa using hlength
    obtain rfl := h.contexts.depth_eq_zero rfl
    exact h
  | cons d around =>
    cases around' with
    | nil => simp at hlength
    | cons d' around' => exact ⟨h.contexts.pop (by simp), h.found⟩

theorem recognize (hdistance : (r.recognize bindings n σ).found.length = r.found.length + 1 →
    distance r.found.length = distanceAt δ depth) :
    (r.recognize bindings n σ).Moved δ distance depth (r'.recognize bindings n' σ) := by
  unfold ReaderState.recognize at hdistance ⊢
  cases hmatch : matchStatement? σ with
  | none => exact h
  | some p =>
    rw [hmatch] at hdistance
    have hc := h.contexts.head
    refine ⟨h.contexts.replace ⟨hc.x, hc.y, hc.pending, rfl, ?_⟩, .cons ?_ h.found⟩
    · dsimp only
      rw [hc.awaiting]
    · rw [hdistance rfl, hc.carried]
      exact Candidate.Moved.ofCall hc.x hc.y ..

theorem giveHandler (shape : Shape) (handler : List Char) :
    (r.giveHandler shape handler).Moved δ distance depth (r'.giveHandler shape handler) := by
  obtain ⟨c, around, found⟩ := r
  obtain ⟨c', around', found'⟩ := r'
  have hfound := h.found
  dsimp only at hfound
  unfold ReaderState.giveHandler
  cases hfound with
  | nil => exact h
  | cons hc hcs => exact ⟨h.contexts, .cons (hc.withHandler _ _) hcs⟩

theorem enter (hdistance : (r.enter bindings n σ).found.length = r.found.length + 1 →
    distance r.found.length = distanceAt δ depth) :
    (r.enter bindings n σ).Moved δ distance depth (r'.enter bindings n' σ) := by
  have hc := h.contexts.head
  unfold ReaderState.enter at hdistance ⊢
  rw [hc.awaiting]
  cases hawaiting : r.current.awaiting? with
  | none =>
    rw [hawaiting] at hdistance
    exact h.recognize hdistance
  | some p =>
    have hidle : Moved δ distance depth { r with current := { r.current with awaiting? := none } }
        { r' with current := { r'.current with awaiting? := none } } :=
      h.replace ⟨hc.x, hc.y, hc.pending, hc.carried, rfl⟩
    rw [hawaiting] at hdistance
    dsimp only at hdistance ⊢
    cases hfollows : p.1.followUpHandler? p.2 σ with
    | some handler => exact hidle.giveHandler p.1 handler
    | none =>
      rw [hfollows] at hdistance
      exact hidle.recognize hdistance

/-- A statement does the same for both readers. -/
theorem step (hwhole : MovesWhole bindings σ) {r₁ : ReaderState}
    (hstep : ReaderState.step bindings n r σ = .ok r₁)
    (hdistance : r₁.found.length = r.found.length + 1 →
      distance r.found.length = distanceAt δ depth) :
    ∃ r₁', ReaderState.step bindings n' r' σ = .ok r₁' ∧
      r₁.Moved δ distance (movedAfter depth σ) r₁' := by
  unfold ReaderState.step at hstep ⊢
  unfold movedAfter
  split at hstep
  · next hopens =>
    obtain rfl := Except.ok.inj hstep
    rw [if_pos hopens, if_pos hopens]
    exact ⟨_, rfl, h.push⟩
  · next hopens =>
    rw [if_neg hopens, if_neg hopens]
    split at hstep
    · next hcloses =>
      obtain rfl := Except.ok.inj hstep
      rw [if_pos hcloses, if_pos hcloses]
      exact ⟨_, rfl, h.pop⟩
    · next hcloses =>
      rw [if_neg hcloses, if_neg hcloses]
      split at hstep
      · next arguments harguments =>
        obtain ⟨c, hc, hr⟩ := bind_eq_ok.1 hstep
        obtain rfl := Except.ok.inj hr
        obtain ⟨c', hc', hmoved⟩ := h.contexts.head.move (hwhole arguments harguments) hc
        exact ⟨_, bind_eq_ok.2 ⟨c', hc', rfl⟩, h.replace hmoved⟩
      · obtain rfl := Except.ok.inj hstep
        rw [h.isEmpty_around_eq]
        refine ⟨_, rfl, ?_⟩
        split
        · exact h
        · next hopen =>
          rw [if_neg hopen] at hdistance
          exact h.enter hdistance

/-- An event of whatever line is handled as in the other reader. -/
theorem next {e : ℕ × Event} (hwhole : ∀ σ, e.2 = .statement σ → MovesWhole bindings σ)
    {r₁ : ReaderState} (he : handle bindings r e = .ok r₁)
    (hdistance : ∀ σ, e.2 = .statement σ → r₁.found.length = r.found.length + 1 →
      distance r.found.length = distanceAt δ depth)
    (renumber : ℕ → ℕ) :
    ∃ r₁', handle bindings r' (Prod.map renumber id e) = .ok r₁' ∧
      r₁.Moved δ distance ((statementsOf [e]).foldl movedAfter depth) r₁' := by
  obtain ⟨n, event⟩ := e
  cases event with
  | marker m =>
    obtain rfl := Except.ok.inj he
    exact ⟨_, rfl, h.mark m⟩
  | statement σ => exact h.step (hwhole σ rfl) he (hdistance σ rfl)

/-- What a moved reader finds in some events: a candidate is moved if the context is in which it is
found. -/
theorem handleAll {es : List (ℕ × Event)}
    (hwhole : ∀ e ∈ es, ∀ σ, e.2 = .statement σ → MovesWhole bindings σ) {r₁ : ReaderState}
    (hr : es.foldlM (handle bindings) r = .ok r₁)
    (hdistance : ∀ inside n σ behind r₂ r₃, es = inside ++ (n, .statement σ) :: behind →
      inside.foldlM (handle bindings) r = .ok r₂ → ReaderState.step bindings n r₂ σ = .ok r₃ →
      r₃.found.length = r₂.found.length + 1 →
      distance r₂.found.length = distanceAt δ ((statementsOf inside).foldl movedAfter depth))
    (renumber : ℕ → ℕ) :
    ∃ r₁', (es.map (Prod.map renumber id)).foldlM (handle bindings) r' = .ok r₁' ∧
      r₁.Moved δ distance ((statementsOf es).foldl movedAfter depth) r₁' := by
  induction es generalizing depth r r' with
  | nil =>
    obtain rfl := Except.ok.inj hr
    exact ⟨r', rfl, h⟩
  | cons e es ih =>
    rw [List.foldlM_cons] at hr
    obtain ⟨r₀, he, hes⟩ := bind_eq_ok.1 hr
    have hdepth : ∀ inside, (statementsOf (e :: inside)).foldl movedAfter depth =
        (statementsOf inside).foldl movedAfter ((statementsOf [e]).foldl movedAfter depth) := by
      intro inside
      rw [← List.singleton_append, statementsOf_append, List.foldl_append]
    obtain ⟨r₀', he', hmoved⟩ := h.next (hwhole e List.mem_cons_self) he (fun σ hσ hlength => by
      obtain ⟨n, event⟩ := e
      obtain rfl : event = .statement σ := hσ
      exact hdistance [] n σ es r r₀ rfl rfl he hlength) renumber
    obtain ⟨r₁', hes', hmoved₁⟩ := ih hmoved (fun e he => hwhole e (List.mem_cons_of_mem _ he)) hes
      fun inside n σ behind r₂ r₃ hsplit hinside hstep hlength => by
        rw [← hdepth]
        exact hdistance (e :: inside) n σ behind r₂ r₃ (by rw [hsplit]; rfl)
          (List.foldlM_cons.trans (bind_eq_ok.2 ⟨r₀, he, hinside⟩)) hstep hlength
    rw [hdepth]
    exact ⟨r₁', List.foldlM_cons.trans (bind_eq_ok.2 ⟨r₀', he', hes'⟩), hmoved₁⟩

end Moved

end ReaderState

end SceneScript
