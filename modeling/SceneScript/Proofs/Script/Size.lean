import SceneScript.Proofs.Number.Order
import SceneScript.Proofs.Script.Numbers

/-!
# Sizes of candidates

What a script writes as a number is one: a numeral may be too long for anything but infinity, but
it is never not-a-number, and neither is twice what it writes.

Main statement: the sizes of the candidates of a script are not not-a-number
(`sized_of_candidatesOf`).
-/

namespace SceneScript

/-! ## Numbers -/

namespace Binary64

theorem ofDecimal_ne_nan (negative : Bool) (digits : ℕ) (exponent : ℤ) :
    ofDecimal negative digits exponent ≠ .nan := by
  simp only [ofDecimal, zero, ofRatio]
  split_ifs
  · simp
  · simp
  · simp
  · exact roundUnits_ne_nan _ _ _
  · exact roundUnits_ne_nan _ _ _

end Binary64

namespace Num

theorem isNaN_double {x : Binary64} : (Num.double x).isNaN = false ↔ x ≠ .nan := by
  simp [isNaN]

theorem isNaN_of_finite {v : Num} (h : v.Finite) : v.isNaN = false := by
  cases v with
  | int n => rfl
  | double x =>
    obtain ⟨x', hx, hfinite⟩ := h
    obtain rfl := Except.ok.inj hx
    refine isNaN_double.2 ?_
    rintro rfl
    cases hfinite

theorem isNaN_twice {v : Num} (h : v.isNaN = false) : v.twice.isNaN = false := by
  cases v with
  | int n => rfl
  | double x =>
    rw [twice, isNaN_double]
    cases x with
    | nan => exact absurd h (by decide)
    | infinite negative => exact nofun
    | finite negative mantissa shift hc => exact Binary64.roundUnits_ne_nan _ _ _

end Num

theorem Numeral.isNaN_toNum (n : Numeral) : n.toNum.isNaN = false := by
  unfold toNum
  split
  · rfl
  · exact Num.isNaN_double.2 (Binary64.ofDecimal_ne_nan _ _ _)

theorem Num.common_isNaN : Num.Common fun v => v.isNaN = false :=
  ⟨Numeral.isNaN_toNum, fun _ => Num.isNaN_of_finite⟩

/-- No size that a statement gives is not-a-number. -/
theorem Shape.isNaN_extract {bindings : Lua.Bindings}
    (hbindings : ∀ entry ∈ bindings.entries, entry.2.isNaN = false) (s : Shape) (call : Call) :
    (∀ n, (s.extract bindings call).w? = some n → n.isNaN = false) ∧
      ∀ n, (s.extract bindings call).h? = some n → n.isNaN = false := by
  unfold extract
  split
  · exact ⟨nofun, nofun⟩
  have hfields := holds_arguments Num.common_isNaN hbindings s call
  unfold addDiameter
  split
  · next r hr =>
    obtain ⟨v, hv, hnumber⟩ := Option.bind_eq_some_iff.1 hr
    obtain ⟨key, -, hget⟩ := Option.bind_eq_some_iff.1 hv
    have htwice : r.twice.isNaN = false :=
      Num.isNaN_twice (of_number? hnumber (hfields.props _ (Table.mem_of_get? hget)))
    exact ⟨fun n hn => Option.some.inj hn ▸ htwice, fun n hn => Option.some.inj hn ▸ htwice⟩
  · exact ⟨hfields.w, hfields.h⟩

/-! ## Candidates -/

/-- No size of a candidate is not-a-number. -/
structure Candidate.Sized (c : Candidate) : Prop where
  w : c.w.isNaN = false
  h : c.h.isNaN = false

/-- A size is that of the marker, that of the statement, or that of the type. -/
theorem Candidate.isNaN_size {marker? : Option Marker} {size? : Marker → Option ℤ}
    {given? : Option Num}
    (hgiven : ∀ n, given? = some n → n.isNaN = false) {default : Num}
    (hdefault : default.isNaN = false) :
    (((markerSize marker? size?).or given?).getD default).isNaN = false := by
  cases hsize : (markerSize marker? size?).or given? with
  | none => exact hdefault
  | some v =>
    rcases Option.or_eq_some_iff.1 hsize with hv | ⟨-, hv⟩
    · obtain ⟨n, -, rfl⟩ := Option.map_eq_some_iff.1 hv
      rfl
    · exact hgiven v hv

theorem isNaN_defaultSize (t : ElementType) :
    t.defaultSize.1.isNaN = false ∧ t.defaultSize.2.isNaN = false := by
  cases t <;> decide

theorem sized_of_candidatesOf {text : List Char} {cs : List Candidate}
    (h : candidatesOf text = .ok cs) : ∀ c ∈ cs, c.Sized := by
  have hhandler : ∀ (c : Candidate) shape handler?,
      c.Sized → (c.withHandler shape handler?).Sized := by
    intro c shape handler? hc
    obtain ⟨props, heq⟩ := c.exists_withHandler_eq shape handler?
    rw [heq]
    exact ⟨hc.w, hc.h⟩
  refine forall_of_candidatesOf h (fun shape _ call marker? x y line _ => hhandler _ _ _ ?_)
    hhandler
  obtain ⟨hw, hh⟩ := shape.isNaN_extract (Lua.of_mem_bindingsOf Num.common_isNaN) call
  exact ⟨Candidate.isNaN_size hw (isNaN_defaultSize shape.type).1,
    Candidate.isNaN_size hh (isNaN_defaultSize shape.type).2⟩

end SceneScript
