import SceneScript.Proofs.Element.Stored
import SceneScript.Proofs.Scene.Readable

/-!
# Traceable scenes

The statements of an element hold the text of its handler as it stands, and a script may well tell
which elements it has when this is no name of a function. A traceable element is readable but for
its handlers, and these are any texts that, once trimmed, have no semicolon and no line break.

Under a prop, edits store whatever is of its kind. A value suits a key when an element that stores
it there stays traceable: under the variable of a slider that is an identifier, under a handler such
a text, and otherwise any text, any finite number or null.

Main statement: an edit of a prop with a value that suits its key keeps an element traceable
(`Element.Traceable.setProperty`).
-/

namespace SceneScript

/-- A text that neither ends a statement nor the line on which it stands. -/
structure Lua.Unbroken (t : List Char) : Prop where
  semicolon : ';' ∉ t
  lineFeed : '\n' ∉ t

theorem Lua.Unbroken.append {s t : List Char} (hs : Unbroken s) (ht : Unbroken t) :
    Unbroken (s ++ t) :=
  ⟨List.not_mem_append hs.semicolon ht.semicolon, List.not_mem_append hs.lineFeed ht.lineFeed⟩

theorem Lua.unbroken_of_isCallee {t : List Char} (h : isCallee t = true) : Unbroken t := by
  have hname := (isNameChar_of_isCallee h).2
  exact ⟨fun hmem => ne_of_isNameChar (hname _ hmem) (by decide) rfl,
    fun hmem => ne_of_isNameChar (hname _ hmem) (by decide) rfl⟩

/-- What is from zero to one is finite. -/
theorem Num.finite_of_le {c : Num} (hlow : (0 : Num).le c = true) (hhigh : c.le 1 = true) :
    c.Finite := by
  cases c with
  | int n =>
    have hn : 0 ≤ n ∧ n ≤ 1 := by
      have hlow : (0 : Num).lt (.int n) = true ∨ (0 : Num).eqv (.int n) = true := by
        simpa [le] using hlow
      have hhigh : (Num.int n).lt 1 = true ∨ (Num.int n).eqv 1 = true := by
        simpa [le] using hhigh
      have hlow : 0 < n ∨ 0 = n := hlow.imp of_decide_eq_true beq_iff_eq.1
      have hhigh : n < 1 ∨ n = 1 := hhigh.imp of_decide_eq_true beq_iff_eq.1
      omega
    obtain rfl | rfl : n = 0 ∨ n = 1 := by omega
    · decide +kernel
    · decide +kernel
  | double x =>
    cases x with
    | nan => exact absurd hlow (by decide)
    | infinite negative =>
      cases negative with
      | true => exact absurd hlow (by decide)
      | false => exact absurd hhigh (by decide)
    | finite negative mantissa shift hc => exact finite_double rfl

namespace Element

variable {e : Element}

/-! ## Stored props -/

/-- What a readable element of a type may store under a key. -/
structure MayStore (type key : String) (v : Json) : Prop where
  kind : ∀ spec ∈ SceneScript.propsOf type, spec.key = key → spec.kind.Admits v
  sliderVar : type = ElementType.slider.name → key = "var" → ∀ s, v = .str s →
    Lua.isIdentifier s.toList = true
  handler : ∀ (k : HandlerKey) (s : String), k.key = key → v = .str s →
    Text.isBlankText s.toList = false → Lua.isCallee (Text.trim s.toList) = true

/-- A readable element stays readable with other props, if it may store what is new in them. -/
theorem Readable.withProps (h : e.Readable) {props : Table Json}
    (hprops : ∀ key v, storedProp? { e with props := props } key = some v →
      e.storedProp? key = some v ∨ MayStore e.type key v) :
    Readable { e with props := props } where
  id_ne := h.id_ne
  id_plain := h.id_plain
  name_ne := h.name_ne
  type := h.type
  x := h.x
  y := h.y
  w := h.w
  h := h.h
  props spec hspec v hv :=
    (hprops spec.key v hv).elim (h.props spec hspec v) fun hmay => hmay.kind spec hspec rfl
  sliderVar htype s hs :=
    (hprops "var" _ hs).elim (h.sliderVar htype s) fun hmay => hmay.sliderVar htype rfl s rfl
  handler k s hs :=
    (hprops k.key _ hs).elim (h.handler k s) fun hmay => hmay.handler k s rfl rfl

theorem storedProp?_eq_some_iff {key : String} {v : Json} :
    e.storedProp? key = some v ↔ e.props.get? key = some v ∧ v ≠ .null := by
  unfold storedProp?
  split
  · next hnull =>
    rw [hnull]
    refine iff_of_false (by simp) fun ⟨hv, hne⟩ => hne (Option.some.inj hv).symm
  · next hne =>
    refine ⟨fun hv => ⟨hv, ?_⟩, And.left⟩
    rintro rfl
    exact hne hv

/-- What is stored once a value is put under a key was stored before, or is this value. -/
theorem storedProp?_insert {key key' : String} {v v' : Json}
    (h : storedProp? { e with props := e.props.insert key v } key' = some v') :
    e.storedProp? key' = some v' ∨ key' = key ∧ v' = v := by
  obtain ⟨hget, hne⟩ := storedProp?_eq_some_iff.1 h
  by_cases hkey : key' = key
  · subst hkey
    exact .inr ⟨rfl, Option.some.inj (hget.symm.trans (Table.get?_insert_self e.props key' v))⟩
  · have hold : (e.props.insert key v).get? key' = e.props.get? key' :=
      Table.get?_insert_of_ne e.props v hkey
    exact .inl (storedProp?_eq_some_iff.2 ⟨hold.symm.trans hget, hne⟩)

/-- What is stored under a part of the props is stored under all of them. -/
theorem storedProp?_filter {p : String × Json → Bool} {key : String} {v : Json}
    (h : storedProp? { e with props := e.props.filter p } key = some v) :
    e.storedProp? key = some v ∧ p (key, v) = true := by
  obtain ⟨hget, hne⟩ := storedProp?_eq_some_iff.1 h
  obtain ⟨hmem, hp⟩ := List.mem_filter.1 (Table.mem_of_get? hget)
  exact ⟨storedProp?_eq_some_iff.2 ⟨Table.get?_eq_some_iff.2 hmem, hne⟩, hp⟩

/-! ## Traceable elements -/

/-- Whether the prop under a key is a handler. -/
def isHandlerKey (key : String) : Bool := (HandlerKey.ofKey? key).isSome

theorem isHandlerKey_key (k : HandlerKey) : isHandlerKey k.key = true := by
  cases k <;> decide

/-- An element that stores no handlers, and is else the same. -/
def withoutHandlers (e : Element) : Element :=
  { e with props := e.props.filter fun prop => !isHandlerKey prop.1 }

theorem storedProp?_withoutHandlers (e : Element) {key : String} (h : isHandlerKey key = false) :
    e.withoutHandlers.storedProp? key = e.storedProp? key := by
  have hget : (e.props.filter fun prop => !isHandlerKey prop.1).get? key = e.props.get? key :=
    Table.get?_filter fun v => by simp [h]
  unfold storedProp? withoutHandlers
  rw [hget]

/-- An element that a script tells from others, though it may not read back its handlers. -/
structure Traceable (e : Element) : Prop where
  /-- Without its handlers the element is readable. -/
  readable : e.withoutHandlers.Readable
  /-- A stored handler stays one statement on its line. -/
  handler : ∀ (k : HandlerKey) (s : String), e.storedProp? k.key = some (.str s) →
    Lua.Unbroken (Text.trim s.toList)

theorem Readable.traceable (h : e.Readable) : e.Traceable where
  readable := h.withProps fun _ _ hv => .inl (storedProp?_filter hv).1
  handler k s hs := by
    by_cases hblank : Text.isBlankText s.toList = true
    · rw [Text.trim_eq_nil.2 hblank]
      exact ⟨by simp, by simp⟩
    · exact Lua.unbroken_of_isCallee (h.handler k s hs (by simpa using hblank))

/-! ## Edits -/

/-- The props of a key are of one kind. -/
theorem kind_eq_of_mem_props (t : ElementType) :
    ∀ spec ∈ t.props, ∀ spec' ∈ t.props, spec'.key = spec.key → spec'.kind = spec.kind := by
  cases t <;> decide

end Element

/-- That a traceable element stays so with a value under a key. -/
def Json.SuitsKey (key : String) : Json → Prop
  | .num n => n.Finite
  | .str s => (key = "var" → Lua.isIdentifier s.toList = true) ∧
    (Element.isHandlerKey key = true → Lua.Unbroken (Text.trim s.toList))
  | _ => True

/-- What is stored for a value that suits its key is null, or suits it too and is of the kind of the
prop. -/
theorem admits_of_coerceProp {type key : String} {value v : Json} (hvalue : value.SuitsKey key)
    (h : coerceProp type key value = .ok (some v)) : v = .null ∨
      v.SuitsKey key ∧ ∀ spec ∈ propsOf type, spec.key = key → spec.kind.Admits v := by
  unfold coerceProp at h
  split at h
  · cases h
  · next spec hspec =>
    obtain ⟨t, ht, hmem, hkey⟩ := mem_of_propSpec? hspec
    -- the prop under the key is as good as the one that was found
    have hall : spec.kind.Admits v →
        ∀ spec' ∈ propsOf type, spec'.key = key → spec'.kind.Admits v := by
      intro hadmits spec' hspec' hkey'
      rw [propsOf, ht] at hspec'
      rwa [Element.kind_eq_of_mem_props t spec hmem spec' hspec' (hkey'.trans hkey.symm)]
    split at h
    · exact .inl (Option.some.inj (Except.ok.inj h)).symm
    · next hk =>
      obtain rfl := Option.some.inj (Except.ok.inj h)
      exact .inr ⟨hvalue, hall (by rw [hk]; trivial)⟩
    · next hk =>
      obtain rfl := Option.some.inj (Except.ok.inj h)
      exact .inr ⟨hvalue, hall (by rw [hk]; exact hvalue)⟩
    · next hk =>
      obtain ⟨c, hc, heq⟩ := map_eq_ok.1 h
      obtain rfl := Option.some.inj heq
      have hfinite : c.Finite := Num.finite_of_le (clampChannel_mem hc).1 (clampChannel_mem hc).2
      exact .inr ⟨hfinite, hall (by rw [hk]; exact hfinite)⟩
    · cases h

namespace Element

variable {e : Element}

/-- A traceable element stays traceable with other props, if what is new in them suits its key and
is of the kind of its prop. -/
theorem Traceable.withProps (h : e.Traceable) {props : Table Json}
    (hprops : ∀ key v, storedProp? { e with props := props } key = some v →
      e.storedProp? key = some v ∨ v.SuitsKey key ∧
        ∀ spec ∈ SceneScript.propsOf e.type, spec.key = key → spec.kind.Admits v) :
    Traceable { e with props := props } where
  readable := by
    refine @Readable.withProps _ h.readable (props.filter fun prop => !isHandlerKey prop.1)
      fun key v hv => ?_
    obtain ⟨hv, hkey⟩ := storedProp?_filter (e := { e with props := props }) hv
    have hkey : isHandlerKey key = false := by simpa using hkey
    rcases hprops key v hv with hold | ⟨hsuits, hkind⟩
    · exact .inl ((storedProp?_withoutHandlers e hkey).trans hold)
    · refine .inr ⟨hkind, ?_, ?_⟩
      · rintro - rfl s rfl
        exact hsuits.1 rfl
      · rintro k s rfl
        rw [isHandlerKey_key] at hkey
        cases hkey
  handler k s hs := by
    rcases hprops k.key _ hs with hold | ⟨hsuits, -⟩
    · exact h.handler k s hold
    · exact hsuits.2 (isHandlerKey_key k)

/-- An edit of a prop with a value that suits its key keeps an element traceable, also when it is
refused. -/
theorem Traceable.setProperty (h : e.Traceable) {key : String} {value : Json}
    (hvalue : value.SuitsKey key) : (e.setProperty key value).2.Traceable := by
  unfold Element.setProperty
  split
  · exact h
  · exact h
  · exact h.withProps fun _ _ hv => .inl (storedProp?_filter hv).1
  · next v hne hv =>
    refine h.withProps fun key' v' hv' => ?_
    rcases storedProp?_insert hv' with hold | ⟨rfl, rfl⟩
    · exact .inl hold
    · exact .inr ((admits_of_coerceProp hvalue hv).resolve_left hne)

end Element

/-! ## Traceable scenes -/

/-- A scene of which a script tells the elements. -/
structure Scene.Traceable (s : Scene) : Prop where
  /-- Every element stands under its id. -/
  keys : ∀ entry ∈ s.elements.entries, entry.2.id = entry.1
  /-- The order lists the keys, each once. -/
  order : s.order.Perm s.elements.keys
  /-- Every element is traceable. -/
  elements : ∀ entry ∈ s.elements.entries, entry.2.Traceable

theorem Scene.Readable.traceable {s : Scene} (h : s.Readable) : s.Traceable :=
  ⟨h.keys, h.order, fun entry hentry => (h.elements entry hentry).traceable⟩

/-- A scene with an element replaced by a traceable one of its id. -/
theorem Scene.Traceable.replace {s : Scene} (h : s.Traceable) {key : String}
    (hkey : key ∈ s.elements.keys) {e : Element} (hid : e.id = key) (he : e.Traceable) :
    (s.replace key e).Traceable := by
  have hkeys : (s.replace key e).elements.keys = s.elements.keys :=
    (Table.keys_insert s.elements key e).trans (if_pos hkey)
  refine ⟨fun entry hentry => ?_, hkeys ▸ h.order, fun entry hentry => ?_⟩
  · rcases Table.mem_of_mem_insert hentry with hentry | rfl
    · exact h.keys entry hentry
    · exact hid
  · rcases Table.mem_of_mem_insert hentry with hentry | rfl
    · exact h.elements entry hentry
    · exact he

end SceneScript
