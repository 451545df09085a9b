import SceneScript.Proofs.Script.Assembly
import SceneScript.Proofs.Script.Taken

/-!
# Places of the blocks of a patched script

The block of an element says where the element is, and is read at that place in the context that
the block stands in: the two places are added. When the lines outside the blocks name no owner, the
candidates with an id are those of the blocks (`Seats`), so for a patched script it is known of each
of them where it is.

Main statement: after a patch the candidates with an id are one for each element, at the place of
the element in the context that its block stands in (`Scene.Readable.places_of_patch`).
-/

namespace SceneScript

open Lua Text ReaderState

/-! ## Candidates with an id -/

/-- The id of a candidate and its place, if it has an id. -/
def Candidate.seat? (c : Candidate) : Option (String × Num × Num) :=
  c.id?.map fun id => (id, c.x, c.y)

namespace ReaderState

variable {bindings : Bindings} {n : ℕ} {r r' : ReaderState}

/-- That no marker that the reader still holds names an owner. -/
def Unmarked (r : ReaderState) : Prop :=
  ∀ c ∈ r.current :: r.around, Marker.owner? c.pending? = none ∧ Marker.owner? c.carried? = none

theorem unmarked_start : start.Unmarked := by
  simp [Unmarked, start, Context.start, Marker.owner?]

namespace Unmarked

variable (h : r.Unmarked)

include h

/-- Where no marker names an owner, a statement finds no candidate with an id. -/
theorem next (hnext : Next n r r') : r'.Unmarked ∧
    r'.found.filterMap Candidate.seat? = r.found.filterMap Candidate.seat? := by
  obtain ⟨hcurrent, haround⟩ := List.forall_mem_cons.1 h
  cases hnext with
  | push =>
    exact ⟨List.forall_mem_cons.2 ⟨⟨rfl, hcurrent.1⟩,
      List.forall_mem_cons.2 ⟨⟨rfl, hcurrent.2⟩, haround⟩⟩, rfl⟩
  | pop =>
    unfold pop
    split
    · exact ⟨h, rfl⟩
    · next heq =>
      rw [heq] at haround
      exact ⟨haround, rfl⟩
  | stay hpending hcarried =>
    exact ⟨List.forall_mem_cons.2 ⟨by rwa [hpending, hcarried], haround⟩, rfl⟩
  | handler hpending hcarried hfound props =>
    refine ⟨List.forall_mem_cons.2 ⟨by rwa [hpending, hcarried], haround⟩, ?_⟩
    rw [hfound]
    rfl
  | find hpending hcarried hid hname hline =>
    refine ⟨List.forall_mem_cons.2 ⟨⟨hpending ▸ hcurrent.1, by rw [hcarried]; rfl⟩, haround⟩, ?_⟩
    have hnone := hid.trans hcurrent.2
    exact List.filterMap_cons_none (by rw [Candidate.seat?, hnone]; rfl)

theorem foldlM {σs : List (List Char)} (hstep : σs.foldlM (step bindings n) r = .ok r') :
    r'.Unmarked ∧ r'.found.filterMap Candidate.seat? = r.found.filterMap Candidate.seat? := by
  induction σs generalizing r with
  | nil =>
    obtain rfl := Except.ok.inj hstep
    exact ⟨h, rfl⟩
  | cons σ σs ih =>
    rw [List.foldlM_cons] at hstep
    obtain ⟨r₁, hr₁, hstep⟩ := bind_eq_ok.1 hstep
    obtain ⟨h₁, hfound⟩ := h.next (next_of_step hr₁)
    obtain ⟨h', hfound'⟩ := ih h₁ hstep
    exact ⟨h', hfound'.trans hfound⟩

/-- Nor does a line that names no owner. -/
theorem readLine {l : Line} (hl : NamesNoOwner l) (hread : readLine bindings r l n = .ok r') :
    r'.Unmarked ∧ r'.found.filterMap Candidate.seat? = r.found.filterMap Candidate.seat? := by
  obtain ⟨content, hcontent, hread⟩ := bind_eq_ok.1 hread
  cases content with
  | statements σs => exact h.foldlM hread
  | marker m =>
    obtain ⟨marker?, hmarker, howner⟩ := hl
    have hm := read_of_ofLine hcontent
    rw [Marker.read_trim, hmarker] at hm
    obtain rfl := Except.ok.inj hm
    obtain rfl := Except.ok.inj hread
    obtain ⟨hcurrent, haround⟩ := List.forall_mem_cons.1 h
    exact ⟨List.forall_mem_cons.2 ⟨⟨howner, hcurrent.2⟩, haround⟩, rfl⟩

end Unmarked

end ReaderState

/-! ## Blocks in lines -/

/-- That the block of an element, but for its last line, stands in some lines where the reader has
reached a place. -/
def Element.StandsIn (e : Element) (bindings : Bindings) (n : ℕ) (r : ReaderState) (ls : List Line)
    (x y : Num) : Prop :=
  ∃ indent block front back r₁, e.block indent = .ok block ∧
    ls = front ++ block.dropLast ++ back ∧ readLines bindings n r front = .ok r₁ ∧
    r₁.current.x = x ∧ r₁.current.y = y

namespace Element.StandsIn

variable {e : Element} {bindings : Bindings} {n : ℕ} {r r₁ : ReaderState} {ls ls' : List Line}
  {x y : Num}

theorem append_right (h : e.StandsIn bindings n r ls x y) (ls' : List Line) :
    e.StandsIn bindings n r (ls ++ ls') x y := by
  obtain ⟨indent, block, front, back, r₁, hblock, rfl, hread, hplace⟩ := h
  exact ⟨indent, block, front, back ++ ls', r₁, hblock, by simp only [List.append_assoc], hread,
    hplace⟩

theorem append_left (hls : readLines bindings n r ls = .ok r₁)
    (h : e.StandsIn bindings (n + ls.length) r₁ ls' x y) :
    e.StandsIn bindings n r (ls ++ ls') x y := by
  obtain ⟨indent, block, front, back, r₂, hblock, rfl, hread, hplace⟩ := h
  refine ⟨indent, block, ls ++ front, back, r₂, hblock, by simp only [List.append_assoc], ?_,
    hplace⟩
  rw [readLines_append_ok hls, hread]

end Element.StandsIn

/-- That a drawing has a seat in some lines: its id, and its place in the context that its block
stands in. -/
def Drawing.HasSeat (bindings : Bindings) (n : ℕ) (r : ReaderState) (ls : List Line) (d : Drawing)
    (seat : String × Num × Num) : Prop :=
  ∃ x y x' y', seat = (d.element.id, x', y') ∧ d.element.StandsIn bindings n r ls x y ∧
    x.add (.int d.frame.x) = .ok x' ∧ y.add (.int d.frame.y) = .ok y'

/-- That lines, wherever no marker names an owner, are read as candidates with the seats of some
drawings, if they can be read. -/
def Seats (ds : List Drawing) (ls : List Line) : Prop :=
  ∀ ⦃bindings : Bindings⦄ ⦃n : ℕ⦄ ⦃r r' : ReaderState⦄, r.Unmarked →
    readLines bindings n r ls = .ok r' → r'.Unmarked ∧
      ∃ seats, List.Forall₂ (Drawing.HasSeat bindings n r ls) ds seats ∧
        r'.found.filterMap Candidate.seat? = seats.reverse ++ r.found.filterMap Candidate.seat?

theorem seats_nil : Seats [] [] := by
  intro bindings n r r' hr h
  obtain rfl := Except.ok.inj h
  exact ⟨hr, [], .nil, rfl⟩

/-- A line that names no owner has no seat. -/
theorem seats_of_namesNoOwner {l : Line} (hl : NamesNoOwner l) : Seats [] [l] := by
  intro bindings n r r' hr h
  obtain ⟨r₁, hr₁, h⟩ := bind_eq_ok.1 h
  obtain rfl := Except.ok.inj h
  obtain ⟨hr', hfound⟩ := hr.readLine hl hr₁
  exact ⟨hr', [], .nil, hfound⟩

theorem Seats.append {ds ds' : List Drawing} {ls ls' : List Line} (h : Seats ds ls)
    (h' : Seats ds' ls') : Seats (ds ++ ds') (ls ++ ls') := by
  intro bindings n r r' hr hread
  rw [readLines_append] at hread
  obtain ⟨r₁, hr₁, hread⟩ := bind_eq_ok.1 hread
  obtain ⟨hunmarked, seats, hseats, hfound⟩ := h hr hr₁
  obtain ⟨hunmarked', seats', hseats', hfound'⟩ := h' hunmarked hread
  refine ⟨hunmarked', seats ++ seats', List.rel_append ?_ ?_, ?_⟩
  · refine hseats.imp fun d seat => ?_
    rintro ⟨x, y, x', y', hseat, hstands, hadd⟩
    exact ⟨x, y, x', y', hseat, hstands.append_right ls', hadd⟩
  · refine hseats'.imp fun d seat => ?_
    rintro ⟨x, y, x', y', hseat, hstands, hadd⟩
    exact ⟨x, y, x', y', hseat, hstands.append_left hr₁, hadd⟩
  · rw [hfound', hfound, List.reverse_append, List.append_assoc]

/-- The block of an element, but for its last line, has the seat of the element. -/
theorem seats_dropLast (d : Drawing) {indent : List Char} (hindent : indent.all isBlank = true) :
    Seats [d] (d.lines indent).dropLast := by
  intro bindings n r r' hr hread
  obtain ⟨x, y, hx, hy, rfl⟩ := d.exists_of_readLines_dropLast hindent hread
  obtain ⟨hcurrent, haround⟩ := List.forall_mem_cons.1 hr
  have hstands : d.element.StandsIn bindings n r (d.lines indent).dropLast r.current.x
      r.current.y :=
    ⟨indent, d.lines indent, [], [], r, d.block_eq indent, (List.append_nil _).symm, rfl, rfl, rfl⟩
  refine ⟨List.forall_mem_cons.2 ⟨⟨rfl, rfl⟩, List.forall_mem_cons.2 ⟨⟨rfl, hcurrent.2⟩, haround⟩⟩,
    [(d.element.id, x, y)], .cons ⟨_, _, x, y, rfl, hstands, hx, hy⟩ .nil, ?_⟩
  rfl

/-- An empty last line makes no difference. -/
theorem seats_concat_nil_iff {ds : List Drawing} {ls : List Line} :
    Seats ds (ls ++ [[]]) ↔ Seats ds ls := by
  refine ⟨fun h bindings n r r' hr hread => ?_, fun h => ?_⟩
  · have hlast : readLines bindings n r (ls ++ [[]]) = .ok r' := by
      rw [readLines_append_ok hread]
      exact readLines_cons_ok ((IsNoise.blank rfl).readLine_eq bindings r' _) []
    obtain ⟨hunmarked, seats, hseats, hfound⟩ := h hr hlast
    refine ⟨hunmarked, seats, hseats.imp fun d seat => ?_, hfound⟩
    rintro ⟨x, y, x', y', hseat, ⟨indent, block, front, back, r₁, hblock, hls, hplace⟩, hadd⟩
    obtain rfl : d.lines indent = block := Except.ok.inj ((d.block_eq indent).symm.trans hblock)
    rcases List.eq_nil_or_concat' back with rfl | ⟨back, l, rfl⟩
    · -- no line of a block is empty
      have hne : (d.lines indent).dropLast ≠ [] := by
        rw [d.lines_eq, ← List.cons_append, ← List.cons_append, List.dropLast_concat]
        exact List.cons_ne_nil _ _
      have hlast := congrArg List.getLast? hls
      rw [List.append_nil, List.getLast?_concat, List.getLast?_append_of_ne_nil _ hne] at hlast
      have hmem := List.mem_of_mem_dropLast (List.mem_of_getLast? hlast.symm)
      obtain ⟨t, heq, hne, -⟩ := d.exists_flat_of_mem_lines [] hmem
      exact absurd (List.append_eq_nil_iff.1 heq.symm).2 hne
    · rw [← List.append_assoc] at hls
      exact ⟨x, y, x', y', hseat, ⟨indent, _, front, back, r₁, hblock,
        (List.append_inj' hls rfl).1, hplace⟩, hadd⟩
  · have hempty : NamesNoOwner [] := namesNoOwner_of_read (read_of_afterWord? (by decide))
    have hlast := h.append (seats_of_namesNoOwner hempty)
    rwa [List.append_nil] at hlast

/-- Seats are put together as the lines are. -/
theorem assembles_seats : Assembles NamesNoOwner Seats where
  nil := seats_nil
  line := seats_of_namesNoOwner
  around := by
    intro d indent hindent ds ls h
    have htrim : trim (indent ++ "UiPop()".toList) = "UiPop()".toList := by
      have hbetween := trim_between isStatement_closing.tight hindent all_isBlank_nil
      rwa [List.append_nil] at hbetween
    have hclosing : NamesNoOwner (indent ++ "UiPop()".toList) :=
      namesNoOwner_of_read (read_of_afterWord? (by rw [htrim]; decide))
    have hall := ((seats_dropLast d hindent).append h).append (seats_of_namesNoOwner hclosing)
    rw [List.append_nil] at hall
    exact hall
  append := Seats.append
  concat_nil_iff := seats_concat_nil_iff

/-! ## Patched scripts -/

/-- That the block of an element, but for its last line, stands in a script where the reader has
reached a place. -/
def Element.StandsAt (e : Element) (code : List Char) (x y : Num) : Prop :=
  ∃ (b : LineBreak) (ls : List Line), code = join b.text ls ∧ (∀ l ∈ ls, '\n' ∉ l) ∧
    e.StandsIn (bindingsOf ls) 1 start ls x y

/-- When the lines outside the blocks of a script name no owner, or there are no blocks, the
candidates of the patched script with an id are one for each element, at the place of the element in
the context that its block stands in. -/
theorem Scene.Readable.places_of_patch {s : Scene} (h : s.Readable) {text code : List Char}
    {parts : List Segment} (hparts : segments ((LineBreak.ofText text).lines text) = .ok parts)
    (hplain : parts.any Segment.isBlock = true → ∀ l ∈ linesOutside parts, NamesNoOwner l)
    (hcode : s.patch text = .ok code) {cs : List Candidate} (hcs : candidatesOf code = .ok cs) :
    (cs.filterMap Candidate.id?).Perm s.order ∧ ∀ c ∈ cs, ∀ id, c.id? = some id →
      ∃ e x y x₀ y₀, s.elements.get? id = some e ∧ e.x.roundHalfUp = .ok x ∧
        e.y.roundHalfUp = .ok y ∧ e.StandsAt code x₀ y₀ ∧ x₀.add (.int x) = .ok c.x ∧
        y₀.add (.int y) = .ok c.y := by
  obtain ⟨b, ls, ds, rfl, hfeed, hds, hseats⟩ := h.exists_assembled_patch assembles_seats hparts
    hplain (fun l hl => namesNoOwner_of_read (read_of_mem_frame l hl))
    (fun hname => namesNoOwner_of_read (read_handlerStub hname)) hcode
  obtain ⟨r, hr, heq⟩ := exists_readLines_of_join hfeed hcs
  have hsame : ∀ cs : List Candidate, (cs.map Candidate.unnumbered).filterMap Candidate.seat? =
      cs.filterMap Candidate.seat? := fun cs => List.filterMap_map ..
  obtain ⟨-, seats, hall, hseats⟩ := hseats unmarked_start hr
  have hseats : cs.filterMap Candidate.seat? = seats := by
    rw [← hsame, ← heq, hsame, List.filterMap_reverse, hseats]
    simp [ReaderState.start]
  refine ⟨?_, fun c hc id hid => ?_⟩
  · have hids : cs.filterMap Candidate.id? = (cs.filterMap Candidate.seat?).map Prod.fst := by
      rw [List.map_filterMap]
      refine List.filterMap_congr fun c _ => ?_
      cases hid : c.id? <;> simp [Candidate.seat?, hid]
    have hfst : (ds.map fun d => d.element.id) = seats.map Prod.fst := by
      refine map_eq_of_forall₂ (fun d seat => ?_) hall
      rintro ⟨x, y, x', y', rfl, -⟩
      rfl
    rw [hids, hseats, ← hfst]
    exact hds.2
  · have hseat : c.seat? = some (id, c.x, c.y) := by rw [Candidate.seat?, hid]; rfl
    have hmem := List.mem_filterMap.2 ⟨c, hc, hseat⟩
    rw [hseats] at hmem
    obtain ⟨d, hd, x₀, y₀, x', y', heq, hstands, hx, hy⟩ := exists_of_mem_right hall hmem
    cases heq
    exact ⟨d.element, d.frame.x, d.frame.y, x₀, y₀, hds.1 d hd, d.roundsTo.x, d.roundsTo.y,
      ⟨b, ls, rfl, hfeed, hstands⟩, hx, hy⟩

end SceneScript
