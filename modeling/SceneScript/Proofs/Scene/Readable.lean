import SceneScript.Lua.Name
import SceneScript.Proofs.Lua.Name
import SceneScript.Proofs.Number.Finite
import SceneScript.Proofs.Table
import SceneScript.Scene.Basic
import SceneScript.Script.Shape

/-!
# Readable scenes

A scene is readable when its script says everything about it: every element stands under its id
once and in order, ids are words of a marker, names are not empty, types can be created, numbers
are finite, and what a script writes as a name is one (`Element.Readable`, `Scene.Readable`).

Main statement: the value that a prop of a readable element has in effect can be had and is of the
kind of the prop (`Element.Readable.resolveProp`).
-/

namespace SceneScript

instance (v : Num) : Decidable v.Finite :=
  decidable_of_iff (∃ x ∈ v.toDouble.toOption, x.isFinite = true) <| by
    unfold Num.Finite
    cases v.toDouble <;> simp [Except.toOption]

/-- The values that a prop of a kind may hold: texts, or finite numbers. -/
def PropKind.Admits : PropKind → Json → Prop
  | .text, .str _ => True
  | .number, .num v => v.Finite
  | .channel, .num v => v.Finite
  | _, _ => False

instance : ∀ (k : PropKind) (v : Json), Decidable (k.Admits v)
  | .text, .str _ => inferInstanceAs (Decidable True)
  | .number, .num v => inferInstanceAs (Decidable v.Finite)
  | .channel, .num v => inferInstanceAs (Decidable v.Finite)
  | .text, .null | .text, .bool _ | .text, .num _ | .text, .arr _ | .text, .obj _ => .isFalse id
  | .number, .null | .number, .bool _ | .number, .str _ | .number, .arr _ | .number, .obj _ =>
    .isFalse id
  | .channel, .null | .channel, .bool _ | .channel, .str _ | .channel, .arr _ | .channel, .obj _ =>
    .isFalse id

theorem PropKind.exists_of_admits_text {v : Json} (h : PropKind.text.Admits v) :
    ∃ s, v = .str s := by
  cases v with
  | str s => exact ⟨s, rfl⟩
  | _ => exact h.elim

theorem PropKind.exists_of_admits_number {k : PropKind} (hk : k ≠ .text) {v : Json}
    (h : k.Admits v) : ∃ n, v = .num n ∧ n.Finite := by
  cases k with
  | text => exact absurd rfl hk
  | number =>
    cases v with
    | num n => exact ⟨n, rfl, h⟩
    | _ => exact h.elim
  | channel =>
    cases v with
    | num n => exact ⟨n, rfl, h⟩
    | _ => exact h.elim

/-- An element about which its block says everything. -/
structure Element.Readable (e : Element) : Prop where
  /-- The id is not empty. -/
  id_ne : e.id.toList ≠ []
  /-- The id holds no white space. -/
  id_plain : ∀ c ∈ e.id.toList, Text.isBlank c = false
  /-- The name is not empty. -/
  name_ne : e.name.toList ≠ []
  /-- The type can be created. -/
  type : ∃ t, ElementType.ofName? e.type = some t ∧ t.isCreatable = true
  /-- The place and the size are finite. -/
  x : e.x.Finite
  y : e.y.Finite
  w : e.w.Finite
  h : e.h.Finite
  /-- Stored props are of their kinds. -/
  props : ∀ spec ∈ SceneScript.propsOf e.type, ∀ v,
    e.storedProp? spec.key = some v → spec.kind.Admits v
  /-- A stored variable of a slider is an identifier. -/
  sliderVar : e.type = ElementType.slider.name → ∀ s, e.storedProp? "var" = some (.str s) →
    Lua.isIdentifier s.toList = true
  /-- A stored handler is blank or a callee with blanks around it. -/
  handler : ∀ (k : HandlerKey) (s : String), e.storedProp? k.key = some (.str s) →
    Text.isBlankText s.toList = false → Lua.isCallee (Text.trim s.toList) = true

/-- A scene about which its script says everything. -/
structure Scene.Readable (s : Scene) : Prop where
  /-- Every element stands under its id. -/
  keys : ∀ entry ∈ s.elements.entries, entry.2.id = entry.1
  /-- The order lists the keys, each once. -/
  order : s.order.Perm s.elements.keys
  /-- Every element is readable. -/
  elements : ∀ entry ∈ s.elements.entries, entry.2.Readable

/-- When keys are ids and the order lists them, the elements have the ids of the order. -/
theorem Scene.map_id_of_keys {s : Scene}
    (hkeys : ∀ entry ∈ s.elements.entries, entry.2.id = entry.1)
    (horder : s.order.Perm s.elements.keys) : s.orderedElements.map Element.id = s.order := by
  have hid : ∀ key ∈ s.order, (s.elements.get? key).map Element.id = some key := by
    intro key hkey
    obtain ⟨e, he⟩ := Table.exists_get?_of_mem (horder.mem_iff.1 hkey)
    rw [he, Option.map_some, hkeys _ (Table.mem_of_get? he)]
  rw [orderedElements, List.map_filterMap, List.filterMap_congr hid, List.filterMap_some]

/-- That a scene consists of some elements, in their order, each under its id. -/
structure Scene.ConsistsOf (s : Scene) (es : List Element) : Prop where
  entries : s.elements.entries = es.map fun e => (e.id, e)
  order : s.order = es.map Element.id

namespace Scene.ConsistsOf

variable {s : Scene} {es : List Element} (h : s.ConsistsOf es)

include h

theorem keys : ∀ entry ∈ s.elements.entries, entry.2.id = entry.1 := by
  intro entry hentry
  rw [h.entries] at hentry
  obtain ⟨e, -, rfl⟩ := List.mem_map.1 hentry
  rfl

theorem keys_eq : s.elements.keys = s.order := by
  rw [Table.keys, Entries.keys, h.entries, h.order, List.map_map]
  rfl

theorem nodup : (es.map Element.id).Nodup :=
  h.order ▸ h.keys_eq ▸ s.elements.nodup

theorem get?_of_mem {e : Element} (he : e ∈ es) : s.elements.get? e.id = some e := by
  rw [Table.get?_eq_some_iff, h.entries]
  exact List.mem_map.2 ⟨e, he, rfl⟩

theorem orderedElements_eq : s.orderedElements = es := by
  rw [orderedElements, h.order, List.filterMap_map]
  rw [show es.filterMap (s.elements.get? ∘ Element.id) = es.filterMap some from
    List.filterMap_congr fun e he => h.get?_of_mem he, List.filterMap_some]

end Scene.ConsistsOf

namespace Element

/-! ## Props in effect -/

/-- The defaults of props are of their kinds. -/
theorem admits_default (t : ElementType) :
    ∀ spec ∈ t.props, ∀ v ∈ spec.default?, spec.kind.Admits v := by
  cases t <;> decide +kernel

theorem propsOf_eq {e : Element} {t : ElementType} (h : ElementType.ofName? e.type = some t) :
    SceneScript.propsOf e.type = t.props := by
  rw [SceneScript.propsOf, h]

/-- Where nothing is stored, the default of a prop, or half the width for the radius of a circle, is
in effect, and is of the kind of the prop. -/
theorem exists_resolveProp_of_none {e : Element} (hw : e.w.Finite) {key : String} {spec : PropSpec}
    (hspec : propSpec? e.type key = some spec)
    (hvalue : spec.default?.isSome = true ∨ key = "radius" ∧
      (e.type = ElementType.circle.name ∨ e.type = ElementType.circleOutline.name))
    (hstored : e.storedProp? key = none) :
    ∃ v, e.resolveProp key = .ok (some v) ∧ spec.kind.Admits v := by
  have hmem : spec ∈ SceneScript.propsOf e.type := List.mem_of_find?_eq_some hspec
  unfold Element.resolveProp
  rw [hstored]
  dsimp only
  split
  · next hr =>
    obtain ⟨x, hx, hf⟩ := Num.half_of_finite hw
    refine ⟨.num (.double x), by rw [hx]; rfl, ?_⟩
    obtain ⟨hkey, ht | ht⟩ := hr
    all_goals
      rw [hkey, ht] at hspec
      obtain rfl : ⟨"radius", .number, none⟩ = spec := Option.some.inj hspec
      exact Num.finite_double hf
  · next hr =>
    split
    · next hv =>
      refine ⟨_, rfl, ?_⟩
      rw [hv.1, hv.2] at hspec
      obtain rfl : ⟨"var", .text, none⟩ = spec := Option.some.inj hspec
      trivial
    · next hv =>
      obtain ⟨v, hv⟩ := Option.isSome_iff_exists.1 (hvalue.resolve_right hr)
      refine ⟨v, by rw [hspec]; exact congrArg Except.ok hv, ?_⟩
      unfold SceneScript.propsOf at hmem
      split at hmem
      · next t ht => exact admits_default t spec hmem v hv
      · simp at hmem

/-- The value in effect of a prop with a default, or of the radius of a circle, is of the kind of
the prop. -/
theorem Readable.resolveProp {e : Element} (h : e.Readable) {key : String} {spec : PropSpec}
    (hspec : propSpec? e.type key = some spec)
    (hvalue : spec.default?.isSome = true ∨ key = "radius" ∧
      (e.type = ElementType.circle.name ∨ e.type = ElementType.circleOutline.name)) :
    ∃ v, e.resolveProp key = .ok (some v) ∧ spec.kind.Admits v := by
  cases hstored : e.storedProp? key with
  | some v =>
    have hmem : spec ∈ SceneScript.propsOf e.type := List.mem_of_find?_eq_some hspec
    obtain rfl : spec.key = key := by simpa using List.find?_some hspec
    exact ⟨v, by rw [Element.resolveProp, hstored], h.props spec hmem v hstored⟩
  | none => exact exists_resolveProp_of_none h.w hspec hvalue hstored

/-- The variable of a slider is an identifier. -/
theorem Readable.resolveVar {e : Element} (h : e.Readable) (ht : e.type = ElementType.slider.name) :
    ∃ s, e.resolveProp "var" = .ok (some (.str s)) ∧ Lua.isIdentifier s.toList = true := by
  unfold Element.resolveProp
  cases hstored : e.storedProp? "var" with
  | some v =>
    have hspec : propSpec? e.type "var" = some ⟨"var", .text, none⟩ := by
      rw [ht]
      rfl
    obtain ⟨s, rfl⟩ := PropKind.exists_of_admits_text
      (h.props _ (List.mem_of_find?_eq_some hspec) v hstored)
    exact ⟨s, rfl, h.sliderVar ht s hstored⟩
  | none =>
    refine ⟨String.ofList (sliderVariable e.name.toList), by simp [ht], ?_⟩
    rw [String.toList_ofList]
    exact Lua.isIdentifier_sliderVariable _

/-! ## Handlers -/

/-- The handler that the statements of a readable element call is a callee. -/
theorem Readable.handlerName {e : Element} (h : e.Readable) {shape : Shape} {k : HandlerKey}
    (hshape : shapeOf? e.type = some shape) (hk : shape.handler? = some k) :
    ∃ name, e.handlerName? = some name ∧ Lua.isCallee name = true := by
  have hderived := Lua.isCallee_of_isIdentifier (Lua.isIdentifier_derivedName k e.name.toList)
  unfold Element.handlerName?
  rw [hshape]
  simp only [Option.bind_eq_bind, Option.bind_some, hk]
  split
  · next s hs =>
    have hstored : e.storedProp? k.key = some (.str s) := by
      rw [Element.storedProp?, hs]
    by_cases hblank : Text.isBlankText s.toList = true
    · have htrim := Text.trim_eq_nil.2 hblank
      exact ⟨_, by simp [htrim], hderived⟩
    · have htrim : Text.trim s.toList ≠ [] := fun he => hblank (Text.trim_eq_nil.1 he)
      refine ⟨Text.trim s.toList, by simp [htrim], h.handler k s hstored (by simpa using hblank)⟩
  · exact ⟨_, rfl, hderived⟩

/-! ## New elements -/

/-- What a new element of a type stores is of the kinds of its props, a variable is an identifier,
and handlers are not stored. -/
theorem created_props (t : ElementType) :
    (∀ spec ∈ t.props, ∀ v ∈ (ofType t "" 0 0).storedProp? spec.key, spec.kind.Admits v) ∧
      (∀ s ∈ ((ofType t "" 0 0).storedProp? "var").bind Json.string?,
        Lua.isIdentifier s.toList = true) ∧
      ∀ k ∈ [HandlerKey.onPress, .onChange], (ofType t "" 0 0).storedProp? k.key = none := by
  cases t <;> decide +kernel

/-- That an element has no props, its id is a word, its name is not empty, its type can be created
and its numbers are finite. -/
def IsBare (e : Element) : Prop :=
  e.props.entries.isEmpty = true ∧
    (e.id.toList ≠ [] ∧ ∀ c ∈ e.id.toList, Text.isBlank c = false) ∧ e.name.toList ≠ [] ∧
    (ElementType.ofName? e.type).any ElementType.isCreatable = true ∧
    e.x.Finite ∧ e.y.Finite ∧ e.w.Finite ∧ e.h.Finite

instance (e : Element) : Decidable e.IsBare := by
  unfold IsBare
  exact inferInstance

theorem IsBare.readable {e : Element} (h : e.IsBare) : e.Readable := by
  obtain ⟨hprops, hid, hname, htype, hframe⟩ := h
  have hnone : ∀ key, e.storedProp? key = none := by
    intro key
    rw [storedProp?, Table.get?, List.isEmpty_iff.1 hprops]
    rfl
  obtain ⟨t, ht, hcreatable⟩ := (Option.any_eq_true _ _).1 htype
  exact {
    id_ne := hid.1
    id_plain := hid.2
    name_ne := hname
    type := ⟨t, ht, hcreatable⟩
    x := hframe.1
    y := hframe.2.1
    w := hframe.2.2.1
    h := hframe.2.2.2
    props := fun spec _ v hv => absurd ((hnone spec.key).symm.trans hv) (by simp)
    sliderVar := fun _ v hv => absurd ((hnone "var").symm.trans hv) (by simp)
    handler := fun k v hv => absurd ((hnone k.key).symm.trans hv) (by simp) }

/-- A new element is readable, if its id is a word and its place is finite. -/
theorem readable_ofType {t : ElementType} (ht : t.isCreatable = true) {id : String}
    (hne : id.toList ≠ []) (hplain : ∀ c ∈ id.toList, Text.isBlank c = false) {x y : Num}
    (hx : x.Finite) (hy : y.Finite) : (ofType t id x y).Readable := by
  obtain ⟨hprops, hvar, hhandler⟩ := created_props t
  have hstored : ∀ key, (ofType t id x y).storedProp? key = (ofType t "" 0 0).storedProp? key :=
    fun key => rfl
  have htype : SceneScript.propsOf (ofType t id x y).type = t.props :=
    propsOf_eq (ElementType.ofName?_name t)
  have hsize : t.defaultSize.1.Finite ∧ t.defaultSize.2.Finite := by
    cases t <;> decide +kernel
  exact {
    id_ne := hne
    id_plain := hplain
    name_ne := by
      change (t.name ++ "_" ++ id).toList ≠ []
      simp
    type := ⟨t, ElementType.ofName?_name t, ht⟩
    x := hx
    y := hy
    w := hsize.1
    h := hsize.2
    props := fun spec hspec v hv => hprops spec (htype ▸ hspec) v (hstored _ ▸ hv)
    sliderVar := fun _ s hs => hvar s (by rw [← hstored, hs]; rfl)
    handler := fun k s hs => by
      have hk : k ∈ [HandlerKey.onPress, .onChange] := by cases k <;> decide
      rw [hstored, hhandler k hk] at hs
      simp at hs }

end Element

/-! ## Changing a scene -/

theorem Scene.readable_empty : Scene.empty.Readable :=
  ⟨by simp [empty, Table.empty], by simp [empty, Table.empty, Table.keys, Entries.keys],
    by simp [empty, Table.empty]⟩

theorem Scene.readable_of_isBare {s : Scene}
    (hall : ∀ entry ∈ s.elements.entries, entry.2.id = entry.1 ∧ entry.2.IsBare)
    (horder : s.order.Perm s.elements.keys) : s.Readable :=
  ⟨fun entry hentry => (hall entry hentry).1, horder,
    fun entry hentry => (hall entry hentry).2.readable⟩

/-- A readable scene with a readable element under a new id is readable. -/
theorem Scene.Readable.add {s : Scene} (h : s.Readable) {e : Element} (he : e.Readable)
    (hnew : e.id ∉ s.elements.keys) : (s.add e).Readable := by
  have hentries : (s.add e).elements.entries = s.elements.entries ++ [(e.id, e)] :=
    Table.insert_of_notMem hnew e
  have hkeys : (s.add e).elements.keys = s.elements.keys ++ [e.id] := by
    rw [Table.keys, hentries, Entries.keys, List.map_append]
    rfl
  have hentry : ∀ entry ∈ (s.add e).elements.entries,
      entry ∈ s.elements.entries ∨ entry = (e.id, e) := by
    intro entry hmem
    rw [hentries] at hmem
    simpa using hmem
  refine ⟨fun entry hmem => ?_, ?_, fun entry hmem => ?_⟩
  · rcases hentry entry hmem with hmem | rfl
    · exact h.keys entry hmem
    · rfl
  · rw [hkeys]
    exact h.order.append_right [e.id]
  · rcases hentry entry hmem with hmem | rfl
    · exact h.elements entry hmem
    · exact he

/-- A readable scene without one of its elements is readable. -/
theorem Scene.Readable.remove {s : Scene} (h : s.Readable) (id : String) :
    (s.remove id).Readable where
  keys entry hentry := h.keys entry (List.mem_of_mem_filter hentry)
  order := by
    have hkeys : (s.remove id).elements.keys = s.elements.keys.filter fun key => key ≠ id :=
      Table.keys_erase s.elements id
    rw [hkeys]
    exact h.order.filter _
  elements entry hentry := h.elements entry (List.mem_of_mem_filter hentry)

end SceneScript
