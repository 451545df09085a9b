import SceneScript.Proofs.Number.Order
import SceneScript.Proofs.Scene.Valid

/-!
# What edits store

Under a prop of a kind, edits store texts, numbers, and for a channel only numbers from zero to one:
whatever number is given is held within these bounds, not-a-number included. New elements have only
such props.

Main statements:

* `clampChannel_mem`: what a number is held to is from zero to one.
* `Element.Orderly.edit`, `Element.orderly_of_create?`: edits keep an element valid and the values
  of its props of a sort, and new elements are so.
-/

namespace SceneScript

/-! ## Channels -/

theorem Num.max_eq (a b : Num) : a.max b = a ∨ a.lt b = true ∧ a.max b = b := by
  unfold Num.max
  split
  · next h => exact .inr ⟨h, rfl⟩
  · exact .inl rfl

theorem Num.min_eq (a b : Num) : a.min b = a ∨ b.lt a = true ∧ a.min b = b := by
  unfold Num.min
  split
  · next h => exact .inr ⟨h, rfl⟩
  · exact .inl rfl

/-- What a number is held to is from zero to one. -/
theorem clampChannel_mem {v c : Num} (h : clampChannel v = .ok c) :
    (0 : Num).le c = true ∧ c.le 1 = true := by
  unfold clampChannel at h
  split at h
  · next hwithin =>
    obtain rfl := Except.ok.inj h
    simpa using hwithin
  · obtain ⟨x, -, hc⟩ := bind_eq_ok.1 h
    obtain rfl := Except.ok.inj hc
    have hzero : (0 : Num).le (.double (.zero false)) = true := by decide +kernel
    have hone : (Num.double (Binary64.ofInt 1)).le 1 = true := by decide +kernel
    have hzeroOne : (Num.double (.zero false)).le 1 = true := by decide +kernel
    refine ⟨Num.le_trans hzero (Num.le_max_left rfl _), ?_⟩
    rcases Num.max_eq (.double (.zero false)) ((Num.double (Binary64.ofInt 1)).min (.double x))
      with hmax | ⟨-, hmax⟩
    · rw [hmax]
      exact hzeroOne
    · rw [hmax]
      rcases Num.min_eq (.double (Binary64.ofInt 1)) (.double x) with hmin | ⟨hlt, hmin⟩
      · rw [hmin]
        exact hone
      · rw [hmin]
        exact Num.le_trans (Num.le_of_lt hlt) hone

/-! ## Stored values -/

/-- The values that edits store under a prop of a kind. -/
def PropKind.Stores : PropKind → Json → Prop
  | .text, .str _ => True
  | .number, .num _ => True
  | .channel, .num n => (0 : Num).le n = true ∧ n.le 1 = true
  | _, _ => False

instance : ∀ (k : PropKind) (v : Json), Decidable (k.Stores v)
  | .text, .str _ | .number, .num _ => .isTrue trivial
  | .channel, .num n => inferInstanceAs (Decidable ((0 : Num).le n = true ∧ n.le 1 = true))
  | .text, .null | .text, .bool _ | .text, .num _ | .text, .arr _ | .text, .obj _ => .isFalse id
  | .number, .null | .number, .bool _ | .number, .str _ | .number, .arr _ | .number, .obj _ =>
    .isFalse id
  | .channel, .null | .channel, .bool _ | .channel, .str _ | .channel, .arr _ | .channel, .obj _ =>
    .isFalse id

/-- A value that is accepted is null, or one that is stored. -/
theorem eq_null_or_stores_of_coerceProp {type key : String} {value v : Json}
    (h : coerceProp type key value = .ok (some v)) :
    v = .null ∨ ∃ spec, propSpec? type key = some spec ∧ spec.kind.Stores v := by
  unfold coerceProp at h
  split at h
  · cases h
  · next spec hspec =>
    split at h
    · exact .inl (Option.some.inj (Except.ok.inj h)).symm
    · next hk =>
      obtain rfl := Option.some.inj (Except.ok.inj h)
      exact .inr ⟨spec, hspec, by rw [hk]; trivial⟩
    · next hk =>
      obtain rfl := Option.some.inj (Except.ok.inj h)
      exact .inr ⟨spec, hspec, by rw [hk]; trivial⟩
    · next hk =>
      obtain ⟨c, hc, heq⟩ := map_eq_ok.1 h
      obtain rfl := Option.some.inj heq
      exact .inr ⟨spec, hspec, by rw [hk]; exact clampChannel_mem hc⟩
    · cases h

/-- A sort of values for every kind of props that has what edits store, and only values of the
kind. -/
structure PropKind.IsSort (K : PropKind → Json → Prop) : Prop where
  stores : ∀ k v, k.Stores v → K k v
  holds : ∀ k v, K k v → k.Holds v

/-! ## Orderly elements -/

/-- A valid element with props of a sort. -/
structure Element.Orderly (K : PropKind → Json → Prop) (e : Element) : Prop extends e.Valid where
  props : ∀ prop ∈ e.props.entries, ∃ spec, propSpec? e.type prop.1 = some spec ∧ K spec.kind prop.2

namespace Element

/-- An edit that leaves the id alone, and after which an orderly element is one. -/
structure KeepsOrderly (K : PropKind → Json → Prop) (f : Element → Edited) : Prop where
  id : ∀ e, (f e).2.id = e.id
  orderly : ∀ e : Element, e.Orderly K → (f e).2.Orderly K

variable {K : PropKind → Json → Prop}

theorem keepsOrderly_setPosition (x y : Num) : KeepsOrderly K fun e => e.setPosition x y :=
  ⟨fun _ => rfl, fun _ he =>
    ⟨⟨⟨he.id, he.type, he.name, he.w, he.h, he.storable⟩, he.known⟩, he.props⟩⟩

theorem keepsOrderly_moveBy (dx dy : Num) : KeepsOrderly K fun e => e.moveBy dx dy := by
  refine ⟨(keepsSound_moveBy dx dy).id, fun e he => ?_⟩
  obtain ⟨x, y, h⟩ := e.exists_moveBy_eq dx dy
  rw [h]
  exact ⟨⟨⟨he.id, he.type, he.name, he.w, he.h, he.storable⟩, he.known⟩, he.props⟩

/-- What is no smaller than a positive number is not negative. -/
theorem max_lt_zero {least : Num} (hleast : (0 : Num).lt least = true) (v : Num) :
    (least.max v).lt 0 = false := by
  have hle := Num.le_of_lt hleast
  exact Num.lt_eq_false_of_le (Num.le_trans hle (Num.le_max_left (Num.isNaN_of_le hle).2 v))

theorem keepsOrderly_resize {least : Num} (hleast : (0 : Num).lt least = true) (w h : Num) :
    KeepsOrderly K fun e => e.resize least w h :=
  ⟨fun _ => rfl, fun _ he => ⟨⟨⟨he.id, he.type, he.name, max_lt_zero hleast w, max_lt_zero hleast h,
    he.storable⟩, he.known⟩, he.props⟩⟩

/-- What is left of a name after trimming is not blank, unless nothing is left. -/
theorem visible_trimString {name : String} (h : ¬ (Text.trimString name).isEmpty = true) :
    Validation.Visible (Text.trimString name) := by
  by_contra hblank
  have hall : Text.isBlankText (Text.trim name.toList) = true := by
    simpa [Validation.Visible, Text.trimString, Text.isBlankText] using hblank
  rw [← Text.trim_eq_nil, Text.trim_trim] at hall
  exact h (by rw [Text.trimString, hall]; rfl)

theorem keepsOrderly_rename (name : String) : KeepsOrderly K fun e => e.rename name := by
  refine ⟨(keepsSound_rename name).id, fun e he => ?_⟩
  unfold rename
  dsimp only
  split
  · exact he
  · next hne =>
    exact ⟨⟨⟨he.id, he.type, visible_trimString hne, he.w, he.h, he.storable⟩, he.known⟩, he.props⟩

variable (hK : PropKind.IsSort K)

include hK

/-- Props of a sort make an element orderly, if everything else is as it should be. -/
theorem orderly_of_props {e : Element} (hid : Validation.Solid e.id)
    (htype : ∃ t, ElementType.ofName? e.type = some t ∧ t.isCreatable = true)
    (hname : Validation.Visible e.name) (hw : e.w.lt 0 = false) (hh : e.h.lt 0 = false)
    (hprops : ∀ prop ∈ e.props.entries,
      ∃ spec, propSpec? e.type prop.1 = some spec ∧ K spec.kind prop.2) : e.Orderly K := by
  refine ⟨⟨⟨hid, htype, hname, hw, hh, fun prop hprop => ?_⟩, fun prop hprop => ?_⟩, hprops⟩
  · obtain ⟨spec, -, hkind⟩ := hprops prop hprop
    exact PropKind.Holds.storable (hK.holds _ _ hkind)
  · obtain ⟨spec, hspec, -⟩ := hprops prop hprop
    exact ⟨spec, hspec⟩

theorem keepsOrderly_setProperty (key : String) (value : Json) :
    KeepsOrderly K fun e => e.setProperty key value := by
  refine ⟨(keepsSound_setProperty key value).id, fun e he => ?_⟩
  unfold setProperty
  split
  · exact he
  · exact he
  · exact orderly_of_props hK he.id he.type he.name he.w he.h fun prop hprop =>
      he.props prop (List.mem_of_mem_filter hprop)
  · next v hne hv =>
    refine orderly_of_props hK he.id he.type he.name he.w he.h fun prop hprop => ?_
    rcases Table.mem_of_mem_insert hprop with hprop | rfl
    · exact he.props prop hprop
    · rcases eq_null_or_stores_of_coerceProp hv with rfl | ⟨spec, hspec, hstores⟩
      · exact absurd rfl hne
      · exact ⟨spec, hspec, hK.stores _ _ hstores⟩

omit hK in
theorem stores_of_mem_created (t : ElementType) :
    ∀ prop ∈ defaultProps t ++ creationProps t,
      ∃ spec ∈ propSpec? t.name prop.1, spec.kind.Stores prop.2 := by
  cases t <;> decide +kernel

/-- A new element is orderly. -/
theorem orderly_of_create? {type id : String} (hid : Validation.Solid id) {x y : Num} {e : Element}
    (h : create? type id x y = some e) : e.Orderly K := by
  have hsize : ∀ t : ElementType, t.defaultSize.1.lt 0 = false ∧ t.defaultSize.2.lt 0 = false := by
    intro t
    cases t <;> decide
  unfold create? at h
  split at h
  · next t ht =>
    split at h
    · next hc =>
      obtain rfl := Option.some.inj h
      refine orderly_of_props hK hid ⟨t, ElementType.ofName?_name t, hc⟩
        (Validation.visible_defaultName t.name id) (hsize t).1 (hsize t).2 fun prop hprop => ?_
      obtain ⟨spec, hspec, hstores⟩ := stores_of_mem_created t prop (Table.mem_of_mem_ofList hprop)
      exact ⟨spec, hspec, hK.stores _ _ hstores⟩
    · cases h
  · cases h

end Element

end SceneScript
