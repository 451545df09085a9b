import SceneScript.Proofs.Script.Marked
import SceneScript.Proofs.Script.Ownership

/-!
# A marker is taken once

A marker of a script is at one place at a time: it waits for a block, is carried by one, or has been
taken by a candidate. So the places hold markers of different lines (`Taking.apart`), whatever
blocks the script opens and closes: opening a block hands the waiting marker on to it, a candidate
takes the marker of its block, and closing a block or another marker drops one. A statement does one
of five things (`Next`), and each of them keeps this.

Main statement: the candidates with an id or a name have them from different markers, each on a line
above the candidate, and the lines of the candidates go down the script (`exists_markerLine`).
-/

namespace SceneScript

open Lua Text

/-! ## What a statement does -/

/-- The id and the name of a candidate are those of its marker. -/
theorem Candidate.exists_ofCall_eq_mk (bindings : Lua.Bindings) (shape : Shape) (call : Call)
    (marker? : Option Marker) (x y : Num) (line : ℕ) : ∃ w h props,
      ofCall bindings shape call marker? x y line = ⟨shape.type.name, x, y, w, h, props,
        marker?.bind Marker.id?, marker?.bind Marker.name?, line⟩ := by
  obtain ⟨props, heq⟩ := exists_withHandler_eq _ shape _
  exact ⟨_, _, props, heq⟩

namespace ReaderState

/-- What a reader comes to by a statement of a line: a block is opened or closed, nothing is found,
the newest candidate gets a handler, or a candidate takes the marker of the block. -/
inductive Next (n : ℕ) (r : ReaderState) : ReaderState → Prop
  | push : Next n r r.push
  | pop : Next n r r.pop
  | stay {c : Context} (hpending : c.pending? = r.current.pending?)
      (hcarried : c.carried? = r.current.carried?) : Next n r { r with current := c }
  | handler {c : Context} (hpending : c.pending? = r.current.pending?)
      (hcarried : c.carried? = r.current.carried?) {candidate : Candidate} {cs : List Candidate}
      (hfound : r.found = candidate :: cs) (props : Table Json) :
      Next n r { r with current := c, found := { candidate with props := props } :: cs }
  | find {c : Context} (hpending : c.pending? = r.current.pending?) (hcarried : c.carried? = none)
      {candidate : Candidate} (hid : candidate.id? = r.current.carried?.bind Marker.id?)
      (hname : candidate.name? = r.current.carried?.bind Marker.name?)
      (hline : candidate.line = n) :
      Next n r { r with current := c, found := candidate :: r.found }

variable {r r' : ReaderState} {bindings : Lua.Bindings} {n : ℕ} {σ : List Char}

theorem next_recognize (awaiting? : Option (Shape × Call)) :
    Next n r ({ r with current := { r.current with awaiting? := awaiting? } }.recognize
      bindings n σ) := by
  unfold recognize
  split
  · exact .stay rfl rfl
  · next shape call hmatch =>
    obtain ⟨w, h, props, heq⟩ := Candidate.exists_ofCall_eq_mk bindings shape call
      r.current.carried? r.current.x r.current.y n
    dsimp only
    rw [heq]
    exact .find (n := n) (r := r) (c := { r.current with carried? := none, awaiting? := _ })
      rfl rfl rfl rfl rfl

theorem next_enter : Next n r (r.enter bindings n σ) := by
  unfold enter
  split
  · exact next_recognize r.current.awaiting?
  · dsimp only
    split
    · next shape call _ _ handler _ =>
      unfold giveHandler
      split
      · exact .stay rfl rfl
      · next candidate cs hfound =>
        obtain ⟨props, heq⟩ := candidate.exists_withHandler_eq shape (some handler)
        rw [heq]
        exact .handler (c := { r.current with awaiting? := none }) rfl rfl hfound props
    · exact next_recognize none

theorem next_of_step (h : step bindings n r σ = .ok r') : Next n r r' := by
  unfold step at h
  split at h
  · obtain rfl := Except.ok.inj h
    exact .push
  · split at h
    · obtain rfl := Except.ok.inj h
      exact .pop
    · split at h
      · obtain ⟨c, hc, hr⟩ := bind_eq_ok.1 h
        obtain rfl := Except.ok.inj hr
        obtain ⟨hpending, hcarried⟩ := markers_of_move hc
        exact .stay hpending hcarried
      · obtain rfl := Except.ok.inj h
        split
        · exact .stay rfl rfl
        · exact next_enter

end ReaderState

/-! ## Where markers are -/

/-- A place for a marker: it is empty, or has the marker of a line. -/
abbrev Place := Option (ℕ × Marker)

/-- The lines of the markers that are at some places. -/
def markerLines (places : List Place) : List ℕ := places.filterMap (Option.map Prod.fst)

/-- Places that have markers of different lines, all of them known and above a line. -/
structure Apart (P : ℕ → Marker → Prop) (n : ℕ) (places : List Place) : Prop where
  nodup : (markerLines places).Nodup
  known : ∀ p ∈ places, ∀ q ∈ p, q.1 < n ∧ P q.1 q.2

namespace Apart

variable {P : ℕ → Marker → Prop} {n : ℕ} {places places' : List Place}

theorem sublist (h : Apart P n places) (hsub : places'.Sublist places) : Apart P n places' :=
  ⟨h.nodup.sublist (hsub.filterMap _), fun p hp => h.known p (hsub.subset hp)⟩

theorem perm (h : Apart P n places) (hperm : places.Perm places') : Apart P n places' :=
  ⟨((hperm.filterMap _).nodup_iff).1 h.nodup, fun p hp => h.known p (hperm.symm.subset hp)⟩

theorem cons_none (h : Apart P n places) : Apart P n (none :: places) := by
  refine ⟨h.nodup, fun p hp => ?_⟩
  rcases List.mem_cons.1 hp with rfl | hp
  · simp
  · exact h.known p hp

theorem next (h : Apart P n places) : Apart P (n + 1) places :=
  ⟨h.nodup, fun p hp q hq => ⟨Nat.lt_succ_of_lt (h.known p hp q hq).1, (h.known p hp q hq).2⟩⟩

/-- The marker of a line is apart from those above it. -/
theorem cons_some (h : Apart P n places) {m : Marker} (hm : P n m) :
    Apart P (n + 1) (some (n, m) :: places) := by
  refine ⟨List.nodup_cons.2 ⟨fun hmem => ?_, h.nodup⟩, fun p hp => ?_⟩
  · obtain ⟨p, hp, hline⟩ := List.mem_filterMap.1 hmem
    obtain ⟨q, hq, rfl⟩ := Option.map_eq_some_iff.1 hline
    exact absurd (h.known p hp q hq).1 (lt_irrefl _)
  · rcases List.mem_cons.1 hp with rfl | hp
    · rintro q ⟨⟩
      exact ⟨Nat.lt_succ_self n, hm⟩
    · exact h.next.known p hp

/-- A line has its marker at one place. -/
theorem eq_of_lines_eq (h : Apart P n places) {j k : ℕ} {p q : ℕ × Marker}
    (hp : places[j]? = some (some p)) (hq : places[k]? = some (some q)) (hline : p.1 = q.1) :
    j = k := by
  have hlt : ∀ {j k : ℕ} {p q : ℕ × Marker}, places[j]? = some (some p) →
      places[k]? = some (some q) → j < k → p.1 ≠ q.1 := by
    intro j k p q hp hq hjk
    obtain ⟨hj, hp⟩ := List.getElem?_eq_some_iff.1 hp
    obtain ⟨hk, hq⟩ := List.getElem?_eq_some_iff.1 hq
    have hpairwise := List.pairwise_iff_getElem.1 (List.pairwise_filterMap.1 h.nodup) j k hj hk hjk
    rw [hp, hq] at hpairwise
    exact hpairwise p.1 rfl q.1 rfl
  rcases lt_trichotomy j k with hjk | hjk | hjk
  · exact absurd hline (hlt hp hq hjk)
  · exact hjk
  · exact absurd hline.symm (hlt hq hp hjk)

end Apart

/-- A candidate has its id and its name from a place, and the marker there is above it. -/
structure Candidate.TakesFrom (place : Place) (c : Candidate) : Prop where
  id : c.id? = (place.map Prod.snd).bind Marker.id?
  name : c.name? = (place.map Prod.snd).bind Marker.name?
  above : ∀ p ∈ place, (p.1 : ℤ) < c.line

namespace ReaderState

/-- The markers that are on their way and those that are taken, for a reader above a line: they are
apart, and the lines of the candidates go down the script. -/
structure Taking (P : ℕ → Marker → Prop) (n : ℕ) (waiting : Place) (carried taken : List Place)
    (r : ReaderState) : Prop where
  waits : waiting.map Prod.snd = r.current.pending?
  around : ∀ c ∈ r.around, c.pending? = none
  carries : carried.map (Option.map Prod.snd) = r.carried
  takes : List.Forall₂ Candidate.TakesFrom taken r.found
  apart : Apart P n (waiting :: (carried ++ taken))
  ordered : r.found.Pairwise fun c c' => c'.line ≤ c.line
  found : ∀ c ∈ r.found, c.line ≤ n

variable {P : ℕ → Marker → Prop} {n : ℕ} {r r' : ReaderState} {bindings : Lua.Bindings}

theorem taking_start (P : ℕ → Marker → Prop) : Taking P 1 none [none] [] start where
  waits := rfl
  around := by simp [start]
  carries := rfl
  takes := .nil
  apart := ⟨List.nodup_nil, by simp⟩
  ordered := .nil
  found := by simp [start]

namespace Taking

variable {waiting : Place} {carried taken : List Place}
  (h : Taking P n waiting carried taken r)

include h

theorem next_line : Taking P (n + 1) waiting carried taken r :=
  ⟨h.waits, h.around, h.carries, h.takes, h.apart.next, h.ordered,
    fun c hc => (h.found c hc).trans (by simp)⟩

theorem mark {m : Marker} (hm : P n m) :
    Taking P (n + 1) (some (n, m)) carried taken (r.mark m) where
  waits := rfl
  around := h.around
  carries := h.carries
  takes := h.takes
  apart := (h.apart.sublist (List.sublist_cons_self _ _)).cons_some hm
  ordered := h.ordered
  found := h.next_line.found

theorem push : Taking P n none (waiting :: carried) taken r.push where
  waits := rfl
  around c hc := by
    rcases List.mem_cons.1 hc with rfl | hc
    · rfl
    · exact h.around c hc
  carries := congrArg₂ List.cons h.waits h.carries
  takes := h.takes
  apart := h.apart.cons_none
  ordered := h.ordered
  found := h.found

theorem pop : ∃ waiting' carried', Taking P n waiting' carried' taken r.pop := by
  cases haround : r.around with
  | nil =>
    have hpop : r.pop = r := by rw [ReaderState.pop, haround]
    rw [hpop]
    exact ⟨waiting, carried, h⟩
  | cons c cs =>
    have hpop : r.pop = ⟨c, cs, r.found⟩ := by rw [ReaderState.pop, haround]
    have hcarries := h.carries
    rw [ReaderState.carried, haround] at hcarries
    obtain ⟨place, rest, rfl, -, hrest⟩ := List.map_eq_cons_iff.1 hcarries
    have hnone := h.around c (haround ▸ List.mem_cons_self)
    refine ⟨none, rest, ?_⟩
    rw [hpop]
    exact ⟨hnone.symm, fun c' hc' => h.around c' (haround ▸ List.mem_cons_of_mem _ hc'), hrest,
      h.takes, ((h.apart.sublist (List.sublist_cons_self _ _)).sublist
        (List.sublist_cons_self _ _)).cons_none, h.ordered, h.found⟩

/-- A context with the same markers. -/
theorem stay {c : Context} (hpending : c.pending? = r.current.pending?)
    (hcarried : c.carried? = r.current.carried?) :
    Taking P n waiting carried taken { r with current := c } where
  waits := h.waits.trans hpending.symm
  around := h.around
  carries := h.carries.trans (congrArg (· :: r.around.map Context.carried?) hcarried.symm)
  takes := h.takes
  apart := h.apart
  ordered := h.ordered
  found := h.found

/-- A handler leaves the id, the name and the line of the newest candidate as they are. -/
theorem handler {candidate : Candidate} {cs : List Candidate} (hfound : r.found = candidate :: cs)
    (props : Table Json) :
    Taking P n waiting carried taken
      { r with found := { candidate with props := props } :: cs } := by
  have htakes := h.takes
  have hordered := h.ordered
  have hlines := h.found
  rw [hfound] at htakes hordered hlines
  obtain ⟨place, rest, hplace, hrest, rfl⟩ := List.forall₂_cons_right_iff.1 htakes
  rw [List.pairwise_cons] at hordered
  rw [List.forall_mem_cons] at hlines
  exact ⟨h.waits, h.around, h.carries, .cons ⟨hplace.id, hplace.name, hplace.above⟩ hrest,
    h.apart, List.pairwise_cons.2 ⟨hordered.1, hordered.2⟩,
    List.forall_mem_cons.2 ⟨hlines.1, hlines.2⟩⟩

/-- A candidate takes the marker of the innermost block, and the block has none any more. -/
theorem find {c : Context} (hpending : c.pending? = r.current.pending?) (hnone : c.carried? = none)
    {candidate : Candidate} (hid : candidate.id? = r.current.carried?.bind Marker.id?)
    (hname : candidate.name? = r.current.carried?.bind Marker.name?) (hline : candidate.line = n) :
    ∃ carried' taken', Taking P n waiting carried' taken'
      { r with current := c, found := candidate :: r.found } := by
  obtain ⟨place, rest, rfl, hplace, hrest⟩ := List.map_eq_cons_iff.1 h.carries
  have hmoved : (waiting :: (place :: rest ++ taken)).Perm (waiting :: (rest ++ place :: taken)) :=
    List.Perm.cons _ List.perm_middle.symm
  have hapart : Apart P n (waiting :: (none :: rest ++ place :: taken)) :=
    (h.apart.perm hmoved).cons_none.perm (List.Perm.swap _ _ _)
  have htakes : candidate.TakesFrom place := by
    refine ⟨by rw [hplace, hid], by rw [hplace, hname], fun p hp => ?_⟩
    have hmem : place ∈ waiting :: (place :: rest ++ taken) := by simp
    rw [hline, Int.ofNat_lt]
    exact (h.apart.known place hmem p hp).1
  refine ⟨none :: rest, place :: taken, h.waits.trans hpending.symm, h.around, ?_,
    .cons htakes h.takes, hapart, List.pairwise_cons.2 ⟨fun c' hc' => ?_, h.ordered⟩,
    List.forall_mem_cons.2 ⟨hline.le, h.found⟩⟩
  · exact congrArg₂ List.cons hnone.symm hrest
  · exact (h.found c' hc').trans hline.ge

theorem next (hnext : Next n r r') :
    ∃ waiting' carried' taken', Taking P n waiting' carried' taken' r' := by
  cases hnext with
  | push => exact ⟨_, _, _, h.push⟩
  | pop =>
    obtain ⟨waiting', carried', hpop⟩ := h.pop
    exact ⟨waiting', carried', taken, hpop⟩
  | stay hpending hcarried => exact ⟨_, _, _, h.stay hpending hcarried⟩
  | handler hpending hcarried hfound props =>
    exact ⟨_, _, _, (h.stay hpending hcarried).handler hfound props⟩
  | find hpending hcarried hid hname hline =>
    obtain ⟨carried', taken', hfind⟩ := h.find hpending hcarried hid hname hline
    exact ⟨waiting, carried', taken', hfind⟩

end Taking

/-- Statements of a line keep the markers apart. -/
theorem taking_of_foldlM {σs : List (List Char)}
    (h : ∃ waiting carried taken, Taking P n waiting carried taken r)
    (hr : σs.foldlM (step bindings n) r = .ok r') :
    ∃ waiting carried taken, Taking P n waiting carried taken r' := by
  induction σs generalizing r with
  | nil =>
    obtain rfl := Except.ok.inj hr
    exact h
  | cons σ σs ih =>
    rw [List.foldlM_cons] at hr
    obtain ⟨r₁, hstep, hr⟩ := bind_eq_ok.1 hr
    obtain ⟨waiting, carried, taken, h⟩ := h
    exact ih (h.next (next_of_step hstep)) hr

theorem taking_of_readLine {l : Line} (hl : ∀ m, Marker.read l = .ok (some m) → P n m)
    (h : ∃ waiting carried taken, Taking P n waiting carried taken r)
    (hr : readLine bindings r l n = .ok r') :
    ∃ waiting carried taken, Taking P (n + 1) waiting carried taken r' := by
  obtain ⟨content, hcontent, hr⟩ := bind_eq_ok.1 hr
  cases content with
  | marker m =>
    obtain rfl := Except.ok.inj hr
    obtain ⟨waiting, carried, taken, h⟩ := h
    have hread := read_of_ofLine hcontent
    rw [Marker.read_trim] at hread
    exact ⟨_, _, _, h.mark (hl m hread)⟩
  | statements σs =>
    obtain ⟨waiting, carried, taken, h⟩ := taking_of_foldlM h hr
    exact ⟨_, _, _, h.next_line⟩

theorem taking_of_readLines {ls : List Line}
    (hls : ∀ l i m, (l, i) ∈ ls.zipIdx n → Marker.read l = .ok (some m) → P i m)
    (h : ∃ waiting carried taken, Taking P n waiting carried taken r)
    (hr : readLines bindings n r ls = .ok r') :
    ∃ waiting carried taken, Taking P (n + ls.length) waiting carried taken r' := by
  induction ls generalizing n r with
  | nil =>
    obtain rfl := Except.ok.inj hr
    exact h
  | cons l ls ih =>
    obtain ⟨r₁, hl, hr⟩ := bind_eq_ok.1 hr
    rw [List.zipIdx_cons] at hls
    have h₁ := taking_of_readLine (fun m => hls l n m List.mem_cons_self) h hl
    have hrest := ih (fun l i m hmem => hls l i m (List.mem_cons_of_mem _ hmem)) h₁ hr
    rwa [Nat.add_right_comm, Nat.add_assoc] at hrest

end ReaderState

/-! ## Candidates -/

/-- A candidate that a marker identifies: it has an id or a name. -/
def Candidate.IsIdentified (c : Candidate) : Prop := c.id?.isSome = true ∨ c.name?.isSome = true

/-- A candidate has its id and its name from the marker that the line of a number is, above it. -/
def Candidate.IsMarkedBy (ls : List Line) (c : Candidate) (i : ℕ) : Prop :=
  ∃ l m, (l, i) ∈ ls.zipIdx 1 ∧ Marker.word <+: trim l ∧ Marker.read l = .ok (some m) ∧
    m.id? = c.id? ∧ m.name? = c.name? ∧ (i : ℤ) < c.line

theorem Marker.word_prefix_of_read {l : Line} {m : Marker} (h : read l = .ok (some m)) :
    word <+: trim l := by
  unfold read at h
  split at h
  · cases h
  · next rest hrest => exact ⟨rest, (append_of_afterWord? hrest).symm⟩

/-- The candidates of a script with an id or a name have them from markers on different lines above
them, and the lines of the candidates go down the script. -/
theorem exists_markerLine {text : List Char} {cs : List Candidate}
    (h : candidatesOf text = .ok cs) :
    cs.Pairwise (fun c c' => c.line ≤ c'.line) ∧
      ∃ markerLine : ℕ → ℕ,
        (∀ (k : ℕ) (c : Candidate), cs[k]? = some c → c.IsIdentified →
          c.IsMarkedBy (Text.lines text) (markerLine k)) ∧
        Set.InjOn markerLine {k | ∃ c, cs[k]? = some c ∧ c.IsIdentified} := by
  obtain ⟨r, hr, hcs⟩ := bind_eq_ok.1 h
  obtain rfl := Except.ok.inj hcs
  obtain ⟨waiting, carried, taken, htaking⟩ := ReaderState.taking_of_readLines
    (P := fun i m => ∃ l, (l, i) ∈ (Text.lines text).zipIdx 1 ∧ Marker.read l = .ok (some m))
    (fun l i m hmem hread => ⟨l, hmem, hread⟩) ⟨_, _, _, ReaderState.taking_start _⟩ hr
  have htakes : List.Forall₂ Candidate.TakesFrom taken.reverse r.found.reverse :=
    List.rel_reverse htaking.takes
  have htaken : Apart _ _ taken := htaking.apart.sublist (by simp)
  have hapart := htaken.perm (List.reverse_perm taken).symm
  have hplace : ∀ (k : ℕ) (c : Candidate), r.found.reverse[k]? = some c → c.IsIdentified →
      ∃ p, taken.reverse[k]? = some (some p) ∧ c.TakesFrom (some p) := by
    intro k c hc hidentified
    obtain ⟨place, hplace, htakes⟩ := exists_getElem?_of_forall₂ htakes.flip hc
    cases place with
    | none => simp [Candidate.IsIdentified, htakes.id, htakes.name] at hidentified
    | some p => exact ⟨p, hplace, htakes⟩
  refine ⟨List.pairwise_reverse.2 htaking.ordered,
    fun k => (taken.reverse[k]?.join.map Prod.fst).getD 0, fun k c hc hidentified => ?_, ?_⟩
  · obtain ⟨⟨i, m⟩, hp, htakes⟩ := hplace k c hc hidentified
    obtain ⟨-, l, hmem, hread⟩ := hapart.known _ (List.mem_of_getElem? hp) _ rfl
    dsimp only
    rw [hp]
    exact ⟨l, m, hmem, Marker.word_prefix_of_read hread, hread, htakes.id.symm, htakes.name.symm,
      htakes.above _ rfl⟩
  · rintro j ⟨c, hc, hidentified⟩ k ⟨c', hc', hidentified'⟩ heq
    obtain ⟨p, hp, -⟩ := hplace j c hc hidentified
    obtain ⟨q, hq, -⟩ := hplace k c' hc' hidentified'
    refine hapart.eq_of_lines_eq hp hq ?_
    simpa [hp, hq] using heq

/-- Of two nested blocks, the inner one is read before the outer one gives its marker away. -/
def enclosingScript : List Char :=
  ("--TDGUI id=a\nUiPush()\n--TDGUI id=b\nUiPush()\nUiRect(2, 2)\nUiRect(3, 3)\nUiPop()\n" ++
    "UiRect(1, 1)\nUiPop()").toList

/-- The first statement of each of two nested blocks takes the marker of the block. -/
theorem exists_markerLine_enclosingScript : ∃ cs, candidatesOf enclosingScript = .ok cs ∧
    cs.map (fun c => (c.id?, c.line)) = [(some "b", 5), (none, 6), (some "a", 8)] ∧
    cs.Pairwise (fun c c' => c.line ≤ c'.line) ∧
    ∃ markerLine : ℕ → ℕ,
      (∀ (k : ℕ) (c : Candidate), cs[k]? = some c → c.IsIdentified →
        c.IsMarkedBy (Text.lines enclosingScript) (markerLine k)) ∧
      Set.InjOn markerLine {k | ∃ c, cs[k]? = some c ∧ c.IsIdentified} := by
  have hids : (candidatesOf enclosingScript).toOption.map (List.map fun c => (c.id?, c.line)) =
      some [(some "b", 5), (none, 6), (some "a", 8)] := by
    decide +kernel
  obtain ⟨cs, hcs, hids⟩ := exists_of_toOption_map hids
  exact ⟨cs, hcs, hids, exists_markerLine hcs⟩

end SceneScript
