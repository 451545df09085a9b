import SceneScript.Proofs.Script.Found
import SceneScript.Proofs.Script.Region

/-!
# Which marker a candidate carries

What a script says is a sequence of markers and statements, its events. A marker waits for the next
statement that opens a block (`Waits`), and belongs to that block from there on until the block is
closed (`Within`): it is carried to the statements of the block that stand outside all blocks inside
it (`Carries`). The reader keeps its contexts in accordance with this, step by step
(`ReaderState.Carrying`).

Main statement: a candidate with an id has the id and the name of the marker that is carried to its
statement (`exists_carries_of_candidatesOf`).
-/

namespace SceneScript

open Lua Text

/-! ## Events -/

/-- What is said on a line: a marker, or a statement. -/
inductive Event where
  | marker (m : Marker)
  | statement (σ : List Char)

/-- Whether an event leaves the marker waiting that waits before it. -/
def Event.isIdle : Event → Bool
  | .marker _ => false
  | .statement σ => !opensBlock σ

/-- The statement that an event is. -/
def Event.statement? : Event → Option (List Char)
  | .marker _ => none
  | .statement σ => some σ

namespace ReaderState

/-- The events of a line. -/
def LineContent.events : LineContent → List Event
  | .marker m => [.marker m]
  | .statements σs => σs.map .statement

end ReaderState

open ReaderState (LineContent)

/-- The events of some lines, each with the number of its line, the first one having a number. -/
def numbered : ℕ → List LineContent → List (ℕ × Event)
  | _, [] => []
  | n, content :: contents => content.events.map (n, ·) ++ numbered (n + 1) contents

/-- The statements among some events. -/
def statementsOf (es : List (ℕ × Event)) : List (List Char) := es.filterMap fun e => e.2.statement?

theorem numbered_append (n : ℕ) (a b : List LineContent) :
    numbered n (a ++ b) = numbered n a ++ numbered (n + a.length) b := by
  induction a generalizing n with
  | nil => rfl
  | cons content a ih =>
    rw [List.cons_append, numbered, numbered, ih, List.append_assoc, List.length_cons,
      Nat.add_right_comm, Nat.add_assoc]

theorem statementsOf_append (a b : List (ℕ × Event)) :
    statementsOf (a ++ b) = statementsOf a ++ statementsOf b := List.filterMap_append

theorem statementsOf_singleton (n : ℕ) (σ : List Char) :
    statementsOf [(n, .statement σ)] = [σ] := rfl

/-! ## Markers on their way -/

variable {done : List (ℕ × Event)} {i n : ℕ} {m : Marker}

/-- A marker of a line waits for a block to be opened. -/
def Waits (done : List (ℕ × Event)) (i : ℕ) (m : Marker) : Prop :=
  ∃ before between, done = before ++ (i, .marker m) :: between ∧ ∀ e ∈ between, e.2.isIdle = true

/-- The block that got a marker of a line is open, and so many blocks are open from it on. -/
def Within (done : List (ℕ × Event)) (i : ℕ) (m : Marker) (depth : ℕ) : Prop :=
  ∃ before j σ inside, done = before ++ (j, .statement σ) :: inside ∧ Waits before i m ∧
    opensBlock σ = true ∧ openAfter 1 (statementsOf inside) = some depth

/-- A marker of a line is carried to a statement of a line: the statement stands in the block that
got the marker, outside all blocks inside it. -/
def Carries (es : List (ℕ × Event)) (i : ℕ) (m : Marker) (n : ℕ) : Prop :=
  ∃ before σ behind, es = before ++ (n, .statement σ) :: behind ∧ Within before i m 1

theorem waits_marker (done : List (ℕ × Event)) (n : ℕ) (m : Marker) :
    Waits (done ++ [(n, .marker m)]) n m :=
  ⟨done, [], rfl, by simp⟩

theorem Waits.idle (h : Waits done i m) {e : ℕ × Event} (he : e.2.isIdle = true) :
    Waits (done ++ [e]) i m := by
  obtain ⟨before, between, rfl, hidle⟩ := h
  refine ⟨before, between ++ [e], by simp, fun e' he' => ?_⟩
  rcases List.mem_append.1 he' with he' | he'
  · exact hidle e' he'
  · exact List.mem_singleton.1 he' ▸ he

theorem Waits.opening (h : Waits done i m) {σ : List Char} (hopens : opensBlock σ = true) :
    Within (done ++ [(n, .statement σ)]) i m 1 :=
  ⟨done, n, σ, [], rfl, h, hopens, rfl⟩

theorem Within.event {depth depth' : ℕ} (h : Within done i m depth) {e : ℕ × Event}
    (he : openAfter depth (statementsOf [e]) = some depth') : Within (done ++ [e]) i m depth' := by
  obtain ⟨before, j, σ, inside, rfl, hwaits, hopens, hdepth⟩ := h
  refine ⟨before, j, σ, inside ++ [e], by simp, hwaits, hopens, ?_⟩
  rw [statementsOf_append, openAfter_append, hdepth]
  exact he

theorem Within.carries (h : Within done i m 1) (σ : List Char) :
    Carries (done ++ [(n, .statement σ)]) i m n :=
  ⟨done, σ, [], rfl, h⟩

theorem Carries.append {es : List (ℕ × Event)} (h : Carries es i m n) (more : List (ℕ × Event)) :
    Carries (es ++ more) i m n := by
  obtain ⟨before, σ, behind, rfl, hwithin⟩ := h
  exact ⟨before, σ, behind ++ more, by simp, hwithin⟩

/-! ## Candidates -/

/-- A candidate with an id has the id and the name of the marker that is carried to it. -/
def Candidate.CarriesMarker (es : List (ℕ × Event)) (c : Candidate) : Prop :=
  ∀ id, c.id? = some id →
    ∃ i m n, Carries es i m n ∧ m.id? = some id ∧ m.name? = c.name? ∧ c.line = (n : ℤ)

namespace Candidate

theorem CarriesMarker.append {es : List (ℕ × Event)} {c : Candidate} (h : c.CarriesMarker es)
    (more : List (ℕ × Event)) : c.CarriesMarker (es ++ more) := by
  intro id hid
  obtain ⟨i, m, n, hcarries, hm⟩ := h id hid
  exact ⟨i, m, n, hcarries.append more, hm⟩

/-- A handler changes the props of a candidate alone. -/
theorem exists_withHandler_eq (c : Candidate) (shape : Shape) (handler? : Option (List Char)) :
    ∃ props, c.withHandler shape handler? = { c with props := props } := by
  unfold withHandler
  split
  · split
    · exact ⟨c.props, rfl⟩
    · exact ⟨_, rfl⟩
  · exact ⟨c.props, rfl⟩

theorem CarriesMarker.withHandler {es : List (ℕ × Event)} {c : Candidate} (h : c.CarriesMarker es)
    (shape : Shape) (handler? : Option (List Char)) :
    (c.withHandler shape handler?).CarriesMarker es := by
  obtain ⟨props, heq⟩ := c.exists_withHandler_eq shape handler?
  rw [heq]
  exact h

end Candidate

/-! ## The reader -/

namespace ReaderState

/-- The reader after an event of a line. -/
def handle (bindings : Lua.Bindings) (r : ReaderState) (e : ℕ × Event) :
    Except NumberError ReaderState :=
  match e.2 with
  | .marker m => .ok (r.mark m)
  | .statement σ => r.step bindings e.1 σ

/-- The markers that the open blocks carry, from the inside out. -/
def carried (r : ReaderState) : List (Option Marker) :=
  r.current.carried? :: r.around.map Context.carried?

/-- The contexts of the reader hold the markers that are on their way: the one that waits, and of
each open block the one that it carries. -/
structure Carrying (done : List (ℕ × Event)) (r : ReaderState) : Prop where
  waits : ∀ m, r.current.pending? = some m → ∃ i, Waits done i m
  around : ∀ c ∈ r.around, c.pending? = none
  within : ∀ k m, r.carried[k]? = some (some m) → ∃ i, Within done i m (k + 1)
  outermost : r.carried.getLast? = some none
  found : ∀ c ∈ r.found, c.CarriesMarker done

theorem carrying_start : Carrying [] start where
  waits := by simp [start, Context.start]
  around := by simp [start]
  within k m hm := by
    have := List.mem_of_getElem? hm
    simp [carried, start, Context.start] at this
  outermost := rfl
  found := by simp [start]

/-- A move leaves the markers of a context alone. -/
theorem markers_of_move {bindings : Lua.Bindings} {c c' : Context} {arguments : List (List Char)}
    (h : c.move bindings arguments = .ok c') :
    c'.pending? = c.pending? ∧ c'.carried? = c.carried? := by
  unfold Context.move at h
  dsimp only at h
  split at h
  · split at h
    · obtain ⟨x, -, h⟩ := bind_eq_ok.1 h
      obtain ⟨y, -, h⟩ := bind_eq_ok.1 h
      obtain rfl := Except.ok.inj h
      exact ⟨rfl, rfl⟩
    · obtain rfl := Except.ok.inj h
      exact ⟨rfl, rfl⟩
  · obtain rfl := Except.ok.inj h
    exact ⟨rfl, rfl⟩

namespace Carrying

variable {r : ReaderState} (h : Carrying done r) {bindings : Lua.Bindings} {σ : List Char}

include h

theorem mark (m : Marker) : Carrying (done ++ [(n, .marker m)]) (r.mark m) where
  waits m' hm' := by
    obtain rfl := Option.some.inj hm'
    exact ⟨n, waits_marker done n m⟩
  around := h.around
  within k m' hm' := by
    obtain ⟨i, hi⟩ := h.within k m' hm'
    exact ⟨i, hi.event rfl⟩
  outermost := h.outermost
  found c hc := (h.found c hc).append _

theorem push (hopens : opensBlock σ = true) : Carrying (done ++ [(n, .statement σ)]) r.push where
  waits := by simp [ReaderState.push, Context.inner]
  around c hc := by
    rcases List.mem_cons.1 hc with rfl | hc
    · rfl
    · exact h.around c hc
  within k m hm := by
    cases k with
    | zero =>
      obtain ⟨i, hi⟩ := h.waits m (Option.some.inj hm)
      exact ⟨i, hi.opening hopens⟩
    | succ k =>
      obtain ⟨i, hi⟩ := h.within k m hm
      refine ⟨i, hi.event ?_⟩
      rw [statementsOf_singleton, openAfter, if_pos hopens]
      rfl
  outermost := List.getLast?_cons_cons.trans h.outermost
  found c hc := (h.found c hc).append _

theorem pop (hopens : opensBlock σ = false) (hcloses : closesBlock σ = true) :
    Carrying (done ++ [(n, .statement σ)]) r.pop := by
  have hidle : (Event.statement σ).isIdle = true := by rw [Event.isIdle, hopens]; rfl
  cases haround : r.around with
  | nil =>
    have hpop : r.pop = r := by rw [ReaderState.pop, haround]
    have hcarried : r.carried = [r.current.carried?] := by rw [carried, haround]; rfl
    have hnone : r.current.carried? = none := by
      have := h.outermost
      rw [hcarried] at this
      exact Option.some.inj this
    rw [hpop]
    refine ⟨fun m hm => ?_, h.around, fun k m hm => ?_, h.outermost,
      fun c hc => (h.found c hc).append _⟩
    · obtain ⟨i, hi⟩ := h.waits m hm
      exact ⟨i, hi.idle hidle⟩
    · rw [hcarried, hnone] at hm
      exact absurd (List.mem_singleton.1 (List.mem_of_getElem? hm)) (by simp)
  | cons c cs =>
    have hpop : r.pop = ⟨c, cs, r.found⟩ := by rw [ReaderState.pop, haround]
    have hcarried : r.carried = r.current.carried? :: r.pop.carried := by
      rw [carried, haround, hpop]
      rfl
    refine ⟨fun m hm => ?_, fun c' hc' => ?_, fun k m hm => ?_, ?_, fun c' hc' => ?_⟩
    · have hnone := h.around c (haround ▸ List.mem_cons_self)
      rw [hpop, hnone] at hm
      cases hm
    · rw [hpop] at hc'
      exact h.around c' (haround ▸ List.mem_cons_of_mem _ hc')
    · obtain ⟨i, hi⟩ := h.within (k + 1) m (by rw [hcarried]; exact hm)
      refine ⟨i, hi.event ?_⟩
      rw [statementsOf_singleton, openAfter, if_neg (by simp [hopens]),
        if_pos hcloses, if_neg (by omega)]
      rfl
    · have := h.outermost
      rwa [hcarried, carried, List.getLast?_cons_cons] at this
    · rw [hpop] at hc'
      exact (h.found c' hc').append _

/-- What a statement does that neither opens nor closes a block: the innermost block may have given
its marker away. -/
theorem stay (hopens : opensBlock σ = false) (hcloses : closesBlock σ = false) {c : Context}
    (hpending : c.pending? = r.current.pending?)
    (hcarried : c.carried? = r.current.carried? ∨ c.carried? = none) {found : List Candidate}
    (hfound : ∀ c ∈ found, c.CarriesMarker (done ++ [(n, .statement σ)])) :
    Carrying (done ++ [(n, .statement σ)]) ⟨c, r.around, found⟩ := by
  have hsame : ∀ {depth}, openAfter depth (statementsOf [(n, Event.statement σ)]) = some depth := by
    intro depth
    rw [statementsOf_singleton, openAfter, if_neg (by simp [hopens]),
      if_neg (by simp [hcloses])]
    rfl
  refine ⟨fun m hm => ?_, h.around, fun k m hm => ?_, ?_, hfound⟩
  · obtain ⟨i, hi⟩ := h.waits m (hpending ▸ hm)
    exact ⟨i, hi.idle (by rw [Event.isIdle, hopens]; rfl)⟩
  · obtain ⟨i, hi⟩ : ∃ i, Within done i m (k + 1) := by
      cases k with
      | zero =>
        have hm : c.carried? = some m := Option.some.inj hm
        rcases hcarried with hcarried | hcarried
        · exact h.within 0 m (congrArg some (hcarried ▸ hm))
        · rw [hcarried] at hm
          cases hm
      | succ k => exact h.within (k + 1) m hm
    exact ⟨i, hi.event hsame⟩
  · have hlast := h.outermost
    unfold carried at hlast ⊢
    cases haround : r.around with
    | nil =>
      rw [haround] at hlast
      have hnone : r.current.carried? = none := Option.some.inj hlast
      have : c.carried? = none := hcarried.elim (·.trans hnone) id
      rw [this]
      rfl
    | cons c' cs =>
      rw [haround, List.map_cons, List.getLast?_cons_cons] at hlast
      rwa [List.map_cons, List.getLast?_cons_cons]

/-- A statement that makes a candidate gives it the marker of the innermost block. -/
theorem recognize (hopens : opensBlock σ = false) (hcloses : closesBlock σ = false) :
    Carrying (done ++ [(n, .statement σ)]) (r.recognize bindings n σ) := by
  unfold ReaderState.recognize
  split
  · exact h.stay hopens hcloses rfl (.inl rfl) fun c hc => (h.found c hc).append _
  · next shape call hmatch =>
    refine h.stay (c := { r.current with carried? := none, awaiting? := _ }) hopens hcloses rfl
      (.inr rfl) fun c hc => ?_
    rcases List.mem_cons.1 hc with rfl | hc
    · refine Candidate.CarriesMarker.withHandler (fun id hid => ?_) _ _
      obtain ⟨m, hm, hid⟩ := Option.bind_eq_some_iff.1 hid
      obtain ⟨i, hi⟩ := h.within 0 m (congrArg some hm)
      refine ⟨i, m, n, hi.carries σ, hid, ?_, rfl⟩
      rw [hm]
      rfl
    · exact (h.found c hc).append _

theorem enter (hopens : opensBlock σ = false) (hcloses : closesBlock σ = false) :
    Carrying (done ++ [(n, .statement σ)]) (r.enter bindings n σ) := by
  unfold ReaderState.enter
  split
  · exact h.recognize hopens hcloses
  · next shape call hawaiting =>
    have hcarrying : Carrying done { r with current := { r.current with awaiting? := none } } :=
      ⟨h.waits, h.around, h.within, h.outermost, h.found⟩
    dsimp only
    split
    · next handler hhandler =>
      unfold giveHandler
      split
      · exact hcarrying.stay hopens hcloses rfl (.inl rfl) fun c hc => (h.found c hc).append _
      · next c cs hfound =>
        refine hcarrying.stay hopens hcloses rfl (.inl rfl) fun c' hc' => ?_
        rcases List.mem_cons.1 hc' with rfl | hc'
        · exact ((h.found c (hfound ▸ List.mem_cons_self)).append _).withHandler _ _
        · exact (h.found c' (hfound ▸ List.mem_cons_of_mem _ hc')).append _
    · exact hcarrying.recognize hopens hcloses

theorem step {r' : ReaderState} (hstep : r.step bindings n σ = .ok r') :
    Carrying (done ++ [(n, .statement σ)]) r' := by
  unfold ReaderState.step at hstep
  split at hstep
  · next hopens =>
    obtain rfl := Except.ok.inj hstep
    exact h.push hopens
  · next hopens =>
    rw [Bool.not_eq_true] at hopens
    split at hstep
    · next hcloses =>
      obtain rfl := Except.ok.inj hstep
      exact h.pop hopens hcloses
    · next hcloses =>
      rw [Bool.not_eq_true] at hcloses
      split at hstep
      · obtain ⟨c, hc, hr⟩ := bind_eq_ok.1 hstep
        obtain rfl := Except.ok.inj hr
        obtain ⟨hpending, hcarried⟩ := markers_of_move hc
        exact h.stay hopens hcloses hpending (.inl hcarried) fun c hc => (h.found c hc).append _
      · obtain rfl := Except.ok.inj hstep
        split
        · exact h.stay hopens hcloses rfl (.inl rfl) fun c hc => (h.found c hc).append _
        · exact h.enter hopens hcloses

theorem handle {e : ℕ × Event} {r' : ReaderState} (hr : r.handle bindings e = .ok r') :
    Carrying (done ++ [e]) r' := by
  obtain ⟨n, event⟩ := e
  cases event with
  | marker m =>
    obtain rfl := Except.ok.inj hr
    exact h.mark m
  | statement σ => exact h.step hr

/-- So do any events. -/
theorem handleAll {es : List (ℕ × Event)} {r' : ReaderState}
    (hr : es.foldlM (ReaderState.handle bindings) r = .ok r') : Carrying (done ++ es) r' := by
  induction es generalizing done r with
  | nil =>
    obtain rfl := Except.ok.inj hr
    rwa [List.append_nil]
  | cons e es ih =>
    rw [List.foldlM_cons] at hr
    obtain ⟨r₁, he, hes⟩ := bind_eq_ok.1 hr
    have := ih (h.handle he) hes
    rwa [List.append_assoc] at this

end Carrying

/-! ## Reading -/

/-- Reading a line is handling its events. -/
theorem readLine_eq_foldlM {bindings : Lua.Bindings} {r : ReaderState} {l : Line}
    {content : LineContent} (hl : LineContent.ofLine l = .ok content) (n : ℕ) :
    readLine bindings r l n = (content.events.map (n, ·)).foldlM (handle bindings) r := by
  rw [readLine, hl]
  cases content with
  | marker m => rfl
  | statements σs =>
    change σs.foldlM (ReaderState.step bindings n) r =
      ((σs.map Event.statement).map (n, ·)).foldlM (handle bindings) r
    rw [List.map_map, List.foldlM_map]
    rfl

/-- Lines are read as their events are handled. -/
theorem readLines_eq_foldlM {bindings : Lua.Bindings} {n : ℕ} {r : ReaderState} {ls : List Line}
    {contents : List LineContent}
    (h : List.Forall₂ (fun l content => LineContent.ofLine l = .ok content) ls contents) :
    readLines bindings n r ls = (numbered n contents).foldlM (handle bindings) r := by
  induction h generalizing n r with
  | nil => rfl
  | cons hl _ ih =>
    rw [readLines, readLine_eq_foldlM hl, numbered, List.foldlM_append]
    exact congrArg _ (funext fun r => ih)

/-- What is read of some lines are their events. -/
theorem exists_contents_of_readLines {bindings : Lua.Bindings} {n : ℕ} {r r' : ReaderState}
    {ls : List Line} (h : readLines bindings n r ls = .ok r') :
    ∃ contents, List.Forall₂ (fun l content => LineContent.ofLine l = .ok content) ls contents ∧
      (numbered n contents).foldlM (handle bindings) r = .ok r' := by
  induction ls generalizing n r with
  | nil => exact ⟨[], .nil, h⟩
  | cons l ls ih =>
    obtain ⟨r₁, hl, hls⟩ := bind_eq_ok.1 h
    obtain ⟨content, hcontent, -⟩ := bind_eq_ok.1 hl
    obtain ⟨contents, hall, hfold⟩ := ih hls
    refine ⟨content :: contents, .cons hcontent hall, ?_⟩
    rw [readLine_eq_foldlM hcontent] at hl
    rw [numbered, List.foldlM_append]
    exact bind_eq_ok.2 ⟨r₁, hl, hfold⟩

end ReaderState

/-- A candidate of a script that has an id has the id and the name of the marker that is carried to
its statement. -/
theorem exists_carries_of_candidatesOf {text : List Char} {cs : List Candidate}
    (h : candidatesOf text = .ok cs) :
    ∃ contents, List.Forall₂ (fun l content => LineContent.ofLine l = .ok content)
        (Text.lines text) contents ∧
      ∀ c ∈ cs, c.CarriesMarker (numbered 1 contents) := by
  obtain ⟨r, hr, hcs⟩ := bind_eq_ok.1 h
  obtain rfl := Except.ok.inj hcs
  obtain ⟨contents, hall, hfold⟩ := ReaderState.exists_contents_of_readLines hr
  have hcarrying := ReaderState.carrying_start.handleAll hfold
  exact ⟨contents, hall, fun c hc => hcarrying.found c (List.mem_reverse.1 hc)⟩

end SceneScript
