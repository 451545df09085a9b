import SceneScript.Proofs.Script.Balance
import SceneScript.Proofs.Script.Marked
import SceneScript.Proofs.Script.Ownership

/-!
# Where blocks stand

The finder of blocks says where a block starts and where it stops. It stops where a count of open
blocks fails, which is where as many blocks were closed as opened, behind the first opening
(`ReturnsToZero`, `returnsToZero_iff`). So a found block is its marker, blank lines, and lines that
bring the count back to zero on the last of them and not before (`BlockSpan.Fits`).

Main statement: found blocks are apart from each other, in the order of the script, each fits the
lines where it stands, and no marker outside of all of them has such lines behind it
(`blockSpans_sound_complete`).
-/

namespace SceneScript

open Lua Text

/-! ## Coming back to zero -/

/-- That at some place behind the first of some statements as many blocks are closed as opened. -/
def ReturnsToZero (σs : List (List Char)) : Prop :=
  ∃ front, front <+: σs ∧ front ≠ [] ∧ net front = 0

theorem not_returnsToZero_nil : ¬ ReturnsToZero [] := by
  rintro ⟨front, hfront, hne, -⟩
  exact hne (List.prefix_nil.1 hfront)

/-- Behind a statement that opens a block, the count comes back to zero exactly when the block is
closed. -/
theorem returnsToZero_iff {σ : List Char} (h : opensBlock σ = true) (σs : List (List Char)) :
    ReturnsToZero (σ :: σs) ↔ openAfter 0 (σ :: σs) = none := by
  have hweight : weight σ = 1 := by simp [weight, h]
  have hfront : ∀ front, net (σ :: front) = 0 ↔ ((0 : ℕ) : ℤ) + net front = -1 := by
    intro front
    rw [net_cons, hweight]
    omega
  rw [openAfter, if_pos h, openAfter_succ_eq_none_iff, ReturnsToZero, exists_prefix_cons]
  simp only [ne_eq, not_true_eq_false, false_and, false_or, reduceCtorEq, not_false_eq_true,
    true_and, hfront]

theorem returnsToZero_iff_of_startsRegion {l : Line} (h : startsRegion l = true)
    (ls : List Line) : ReturnsToZero (statementsOfLines (l :: ls)) ↔
      openAfter 0 (statementsOfLines (l :: ls)) = none := by
  obtain ⟨σ, σs, hl, hopens⟩ := exists_of_startsRegion h
  rw [statementsOfLines, List.flatMap_cons, hl, List.cons_append]
  exact returnsToZero_iff hopens _

/-! ## Lines by their numbers -/

/-- That only blank lines stand between a line and one whose first statement opens a block. -/
structure OpensBehind (ls : List Line) (i first : ℕ) : Prop where
  lt : i < first
  blank : ∀ l ∈ ls.extract (i + 1) first, isBlankText l = true
  opens : ∃ l σ σs, ls[first]? = some l ∧ Lua.statements l = σ :: σs ∧ opensBlock σ = true

/-- That a block stands where it is said to stand: its first line is a marker of its id, blank lines
and an opening stand behind that, and the count of open blocks first comes back to zero on its last
line. -/
structure BlockSpan.Fits (b : BlockSpan) (ls : List Line) : Prop where
  start_lt_stop : b.start < b.stop
  stop_lt_length : b.stop < ls.length
  id_ne : b.id ≠ ""
  marker : ∃ l m, ls[b.start]? = some l ∧ Marker.read l = .ok (some m) ∧ m.id? = some b.id ∧
    b.indent = indentOf l
  region : ∃ first, OpensBehind ls b.start first ∧
    ¬ ReturnsToZero (statementsOfLines (ls.extract first b.stop)) ∧
    ReturnsToZero (statementsOfLines (ls.extract first (b.stop + 1)))

theorem extract_of_append {a b c : List Line} {i j : ℕ} (hi : a.length = i)
    (hj : i + b.length = j) : (a ++ (b ++ c)).extract i j = b := by
  subst hi hj
  simp

theorem drop_eq_extract_append {i j : ℕ} (h : i ≤ j) (ls : List Line) :
    ls.drop i = ls.extract i j ++ ls.drop j := by
  obtain ⟨k, rfl⟩ := Nat.exists_eq_add_of_le h
  rw [List.extract_eq_take_drop, Nat.add_sub_cancel_left, ← List.drop_drop, List.take_append_drop]

/-! ## Found blocks -/

theorem Marker.id_ne_empty_of_read {l : Line} {m : Marker} {id : String}
    (h : Marker.read l = .ok (some m)) (hid : m.id? = some id) : id ≠ "" := by
  rintro rfl
  exact (Marker.proper_of_read h).id_ne "" hid rfl

/-- A region that starts with an opening brings the count back to zero on its last line, and not
before. -/
theorem IsRegion.returnsToZero {opening : Line} {behind : List Line}
    (h : IsRegion 0 (opening :: behind)) (hstarts : startsRegion opening = true) :
    ReturnsToZero (statementsOfLines (opening :: behind)) ∧
    ∃ inner closing, opening :: behind = inner ++ [closing] ∧
      ¬ ReturnsToZero (statementsOfLines inner) := by
  refine ⟨(returnsToZero_iff_of_startsRegion hstarts behind).2 h.openAfter_eq, ?_⟩
  obtain ⟨inner, closing, depth, hinner, hopen, -⟩ := h
  refine ⟨inner, closing, hinner, ?_⟩
  cases inner with
  | nil => exact not_returnsToZero_nil
  | cons k inner =>
    obtain ⟨rfl, -⟩ := List.cons.inj hinner
    rw [returnsToZero_iff_of_startsRegion hstarts, statementsOfLines, hopen]
    simp

theorem opensBehind_append {blanks : List Line} (hblanks : ∀ b ∈ blanks, isBlankText b = true)
    {opening : Line} (hstarts : startsRegion opening = true) (front : List Line) (l : Line)
    (behind : List Line) :
    OpensBehind (front ++ l :: (blanks ++ opening :: behind)) front.length
      (front.length + 1 + blanks.length) := by
  obtain ⟨σ, σs, hopening, hopens⟩ := exists_of_startsRegion hstarts
  refine ⟨by omega, ?_, opening, σ, σs, ?_, hopening, hopens⟩
  · rw [← List.singleton_append, ← List.append_assoc, extract_of_append (by simp) rfl]
    exact hblanks
  · have hlength : (front ++ l :: blanks).length = front.length + 1 + blanks.length := by
      rw [List.length_append, List.length_cons]
      omega
    rw [← List.cons_append, ← List.append_assoc, ← hlength, List.getElem?_append_right le_rfl,
      Nat.sub_self]
    rfl

/-- A marker and the region that it owns are a block that fits. -/
theorem fits_of_ownedBlock? {l : Line} {marker? : Option Marker} {id : String}
    {region ls rest : List Line} (hread : Marker.read l = .ok marker?)
    (howned : ownedBlock? marker? ls = some (id, region, rest)) (front : List Line) :
    BlockSpan.Fits ⟨id, front.length, front.length + region.length, indentOf l⟩
      (front ++ l :: ls) := by
  obtain ⟨howner, hregion⟩ := ownedBlock?_eq_some_iff.1 howned
  obtain ⟨m, rfl, hid⟩ := Option.bind_eq_some_iff.1 howner
  obtain rfl := append_of_leadingRegion? hregion
  obtain ⟨blanks, opening, behind, rfl, hblanks, hstarts, hclosed⟩ :=
    isLeading_of_leadingRegion? hregion
  obtain ⟨hreturns, inner, closing, hinner, hstays⟩ := hclosed.returnsToZero hstarts
  have hls : front ++ l :: (blanks ++ opening :: behind ++ rest) =
      (front ++ l :: blanks) ++ (opening :: behind ++ rest) := by
    simp only [List.append_assoc, List.cons_append]
  have hlast : front ++ l :: (blanks ++ opening :: behind ++ rest) =
      (front ++ l :: blanks) ++ (inner ++ ([closing] ++ rest)) := by
    rw [hls, hinner, List.append_assoc inner]
  have hlength : (opening :: behind).length = inner.length + 1 := by
    rw [hinner, List.length_append, List.length_singleton]
  have hfirst : (front ++ l :: blanks).length = front.length + 1 + blanks.length := by
    rw [List.length_append, List.length_cons]
    omega
  have hstop : front.length + 1 + blanks.length + inner.length =
      front.length + (blanks ++ opening :: behind).length := by
    rw [List.length_append, hlength]
    omega
  refine ⟨by simp, ?_, Marker.id_ne_empty_of_read hread hid, ⟨l, m, by simp, hread, hid, rfl⟩,
    front.length + 1 + blanks.length, ?_, ?_, ?_⟩
  · simp only [List.length_append, List.length_cons]
    omega
  · rw [List.append_assoc, List.cons_append]
    exact opensBehind_append hblanks hstarts front l (behind ++ rest)
  · rw [hlast, extract_of_append hfirst hstop]
    exact hstays
  · rw [hls, extract_of_append hfirst (hlength ▸ congrArg (· + 1) hstop)]
    exact hreturns

/-- The blocks among the segments of lines fit them, whatever stands in front. -/
theorem fits_of_segments {ls : List Line} {parts : List Segment} (h : segments ls = .ok parts)
    (front : List Line) : ∀ b ∈ spansFrom front.length parts, b.Fits (front ++ ls) := by
  fun_induction segments ls generalizing parts front with
  | case1 =>
    obtain rfl := Except.ok.inj h
    simp [spansFrom]
  | case2 l =>
    obtain rfl := Except.ok.inj h
    simp [spansFrom]
  | case3 => cases h
  | case4 l next ls marker? hread howned ih =>
    obtain ⟨parts, hparts, rfl⟩ := map_eq_ok.1 h
    have := ih hparts (front ++ [l])
    rwa [List.append_assoc, List.singleton_append, List.length_append] at this
  | case5 l next ls marker? hread id region rest howned ih =>
    obtain ⟨parts, hparts, rfl⟩ := map_eq_ok.1 h
    have hrest := ih hparts (front ++ l :: region)
    rw [List.append_assoc, List.cons_append, append_of_ownedBlock? howned, List.length_append,
      List.length_cons, ← Nat.add_assoc] at hrest
    rw [spansFrom, List.forall_mem_cons]
    exact ⟨fits_of_ownedBlock? hread howned front, hrest⟩

theorem le_start_of_mem_spansFrom {n : ℕ} {parts : List Segment} {b : BlockSpan}
    (h : b ∈ spansFrom n parts) : n ≤ b.start := by
  induction parts generalizing n with
  | nil => cases h
  | cons part parts ih =>
    cases part with
    | line l => exact (Nat.le_succ n).trans (ih h)
    | block id marker region =>
      rcases List.mem_cons.1 h with rfl | h
      · exact le_rfl
      · have := ih h
        omega

theorem pairwise_spansFrom (n : ℕ) (parts : List Segment) :
    (spansFrom n parts).Pairwise fun a b => a.stop < b.start := by
  induction parts generalizing n with
  | nil => exact .nil
  | cons part parts ih =>
    cases part with
    | line l => exact ih (n + 1)
    | block id marker region =>
      exact List.pairwise_cons.2 ⟨fun b hb => le_start_of_mem_spansFrom hb, ih _⟩

/-! ## Markers outside of all blocks -/

/-- Where the count comes back to zero behind an opening, a region is found. -/
theorem exists_leadingRegion? {ls : List Line} {i first : ℕ} (h : OpensBehind ls i first)
    (hreturns : ReturnsToZero (statementsOfLines (ls.drop first))) :
    ∃ region rest, leadingRegion? (ls.drop (i + 1)) = some (region, rest) := by
  obtain ⟨l, σ, σs, hl, hσ, hopens⟩ := h.opens
  obtain ⟨hfirst, hget⟩ := List.getElem?_eq_some_iff.1 hl
  have hstarts : startsRegion l = true := by
    rw [startsRegion, hσ]
    exact hopens
  have hopening : ls.drop first = l :: ls.drop (first + 1) := by
    rw [List.drop_eq_getElem_cons hfirst, hget]
  rw [hopening, returnsToZero_iff_of_startsRegion hstarts] at hreturns
  rw [drop_eq_extract_append h.lt, leadingRegion?_append_of_blank h.blank, hopening,
    leadingRegion?_cons hstarts]
  cases hregion : region? 0 (l :: ls.drop (first + 1)) with
  | none =>
    obtain ⟨depth, hdepth⟩ := region?_eq_none_iff.1 hregion
    exact absurd (hreturns.symm.trans hdepth) (by simp)
  | some r => exact ⟨_, _, rfl⟩

/-- Found blocks are apart from each other and in the order of the script. Each starts with a marker
of its id, which is not empty; behind it stand blank lines and an opening, from which on the count
of open blocks first comes back to zero on the last line of the block. Behind a marker with an id
that is in no found block, and past blank lines, there is no opening from which on the count ever
comes back to zero. -/
theorem blockSpans_sound_complete {ls : List Line} {spans : List BlockSpan}
    (h : blockSpans ls = .ok spans) :
    spans.Pairwise (fun a b => a.stop < b.start) ∧
    (∀ b ∈ spans, b.Fits ls) ∧
    ∀ i l m id, ls[i]? = some l → Marker.read l = .ok (some m) → m.id? = some id →
      (∀ b ∈ spans, ¬ (b.start ≤ i ∧ i ≤ b.stop)) →
      ∀ first, OpensBehind ls i first →
        ¬ ReturnsToZero (statementsOfLines (ls.drop first)) := by
  obtain ⟨parts, hparts, rfl⟩ := map_eq_ok.1 h
  refine ⟨pairwise_spansFrom 0 parts, fits_of_segments hparts [], ?_⟩
  intro i l m id hl hread hid hfree first hopens hreturns
  obtain ⟨hi, hget⟩ := List.getElem?_eq_some_iff.1 hl
  obtain ⟨region, rest, hregion⟩ := exists_leadingRegion? hopens hreturns
  have hls : ls = ls.take i ++ l :: ls.drop (i + 1) := by
    rw [← hget, ← List.drop_eq_getElem_cons hi, List.take_append_drop]
  have hfront : 0 + (ls.take i).length = i := by
    rw [Nat.zero_add, List.length_take_of_le hi.le]
  have hfound := exists_span_of_leadingRegion? hread hid hregion hparts hls 0
  rw [hfront] at hfound
  rcases hfound with ⟨b, hb, -, hstart, hstop⟩ | ⟨b, hb, hstart, hstop⟩
  · exact hfree b hb ⟨hstart.le, by omega⟩
  · exact hfree b hb ⟨hstart.le, hstop⟩

/-- The one block that is found among two nested ones. -/
theorem blockSpans_sound_complete_nestedScript :
    blockSpans (Text.lines nestedScript) = .ok [⟨"a", 2, 9, []⟩] ∧
    [(⟨"a", 2, 9, []⟩ : BlockSpan)].Pairwise (fun a b => a.stop < b.start) ∧
    (∀ b ∈ [(⟨"a", 2, 9, []⟩ : BlockSpan)], b.Fits (Text.lines nestedScript)) ∧
    ∀ i l m id, (Text.lines nestedScript)[i]? = some l → Marker.read l = .ok (some m) →
      m.id? = some id → (∀ b ∈ [(⟨"a", 2, 9, []⟩ : BlockSpan)], ¬ (b.start ≤ i ∧ i ≤ b.stop)) →
      ∀ first, OpensBehind (Text.lines nestedScript) i first →
        ¬ ReturnsToZero (statementsOfLines ((Text.lines nestedScript).drop first)) :=
  ⟨blockSpans_nestedScript, blockSpans_sound_complete blockSpans_nestedScript⟩

end SceneScript
