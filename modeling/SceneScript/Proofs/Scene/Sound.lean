import SceneScript.Element.Edit
import SceneScript.Proofs.Scene.Readable
import SceneScript.Proofs.Traversal
import SceneScript.Validation.Scene

/-!
# Sound scenes

A sound scene is consistent, its types can be created, and its props belong to their types and are
of their kinds. This is less than being readable: names, ids and numbers may be anything, and a prop
may hold null.

Main statements:

* `Scene.Sound.add`, `Scene.Sound.remove`, `Scene.Sound.removeSelected`, `Scene.Sound.select`,
  `Scene.Sound.replace`: editing keeps a scene sound.
* `Scene.Sound.invariantFindings_eq_nil`: the document of a sound scene breaks no rule that ties its
  parts together.
-/

namespace SceneScript

/-! ## Props -/

/-- The values that may be stored under a prop of a kind: null, texts, or numbers. -/
def PropKind.Holds : PropKind → Json → Prop
  | _, .null => True
  | .text, .str _ => True
  | .number, .num _ => True
  | .channel, .num _ => True
  | _, _ => False

instance : ∀ (k : PropKind) (v : Json), Decidable (k.Holds v)
  | .text, .null | .text, .str _ | .number, .null | .number, .num _ | .channel, .null
  | .channel, .num _ => .isTrue trivial
  | .text, .bool _ | .text, .num _ | .text, .arr _ | .text, .obj _ => .isFalse id
  | .number, .bool _ | .number, .str _ | .number, .arr _ | .number, .obj _ => .isFalse id
  | .channel, .bool _ | .channel, .str _ | .channel, .arr _ | .channel, .obj _ => .isFalse id

namespace PropKind

theorem holds_null (k : PropKind) : k.Holds .null := by
  cases k <;> trivial

theorem Admits.holds {k : PropKind} {v : Json} (h : k.Admits v) : k.Holds v := by
  cases k <;> cases v <;> trivial

/-- What a kind holds depends only on whether it is that of texts. -/
theorem Holds.of_text_iff {k k' : PropKind} {v : Json} (h : k.Holds v)
    (hk : k = .text ↔ k' = .text) : k'.Holds v := by
  cases k <;> cases k' <;> cases v <;> trivial

end PropKind

/-- The keys under which texts are stored. -/
def textKeys : List String := ["text", "path", "onPress", "onChange", "var", "align", "mode"]

/-- A key is of a text or of a number, whatever the type. -/
theorem ElementType.kind_eq_text_iff (t : ElementType) :
    ∀ spec ∈ t.props, spec.kind = .text ↔ spec.key ∈ textKeys := by
  cases t <;> decide

theorem mem_of_propSpec? {type key : String} {spec : PropSpec}
    (h : propSpec? type key = some spec) :
    ∃ t, ElementType.ofName? type = some t ∧ spec ∈ t.props ∧ spec.key = key := by
  have hmem := List.mem_of_find?_eq_some h
  have hkey : spec.key = key := by simpa using List.find?_some h
  unfold propsOf at hmem
  split at hmem
  · next t ht => exact ⟨t, ht, hmem, hkey⟩
  · simp at hmem

/-- The props of a key are of a text in all types or in none. -/
theorem kind_eq_text_iff_of_propSpec? {type type' key : String} {spec spec' : PropSpec}
    (h : propSpec? type key = some spec) (h' : propSpec? type' key = some spec') :
    spec.kind = .text ↔ spec'.kind = .text := by
  obtain ⟨t, -, hmem, hkey⟩ := mem_of_propSpec? h
  obtain ⟨t', -, hmem', hkey'⟩ := mem_of_propSpec? h'
  rw [t.kind_eq_text_iff spec hmem, t'.kind_eq_text_iff spec' hmem', hkey, hkey']

/-- That a value may be stored under a key by elements of a type. -/
def Holds (type key : String) (v : Json) : Prop :=
  ∃ spec, propSpec? type key = some spec ∧ spec.kind.Holds v

instance (type key : String) (v : Json) : Decidable (Holds type key v) :=
  decidable_of_iff (∃ spec ∈ propSpec? type key, spec.kind.Holds v) (by simp [Holds])

/-- That all props may be stored by elements of a type. -/
def SoundProps (type : String) (props : Table Json) : Prop :=
  ∀ entry ∈ props.entries, Holds type entry.1 entry.2

namespace SoundProps

variable {type : String} {props : Table Json}

theorem empty (type : String) : SoundProps type Table.empty := by
  simp [SoundProps, Table.empty]

theorem insert (h : SoundProps type props) {key : String} {v : Json} (hv : Holds type key v) :
    SoundProps type (props.insert key v) := by
  intro entry hentry
  rcases Table.mem_of_mem_insert hentry with hentry | rfl
  · exact h entry hentry
  · exact hv

theorem filter (h : SoundProps type props) (p : String × Json → Bool) :
    SoundProps type (props.filter p) :=
  fun entry hentry => h entry (List.mem_of_mem_filter hentry)

theorem ofList {entries : List (String × Json)}
    (h : ∀ entry ∈ entries, Holds type entry.1 entry.2) :
    SoundProps type (Table.ofList entries) :=
  fun entry hentry => h entry (Table.mem_of_mem_ofList hentry)

end SoundProps

/-- A value that is stored may be stored. -/
theorem holds_of_coerceProp {type key : String} {value v : Json}
    (h : coerceProp type key value = .ok (some v)) : Holds type key v := by
  unfold coerceProp at h
  split at h
  · simp at h
  · next spec hspec =>
    refine ⟨spec, hspec, ?_⟩
    split at h
    · obtain rfl : Json.null = v := by simpa using h
      exact spec.kind.holds_null
    · next hk =>
      obtain rfl := Option.some.inj (Except.ok.inj h)
      rw [hk]
      trivial
    · next hk =>
      obtain rfl := Option.some.inj (Except.ok.inj h)
      rw [hk]
      trivial
    · next hk =>
      obtain ⟨c, -, hc⟩ := map_eq_ok.1 h
      obtain rfl := Option.some.inj hc
      rw [hk]
      trivial
    · simp at h

/-! ## Elements -/

/-- The type can be created, and the props belong to it. -/
structure Element.Sound (e : Element) : Prop where
  type : ∃ t, ElementType.ofName? e.type = some t ∧ t.isCreatable = true
  props : SoundProps e.type e.props

namespace Element

theorem holds_of_mem_created (t : ElementType) :
    ∀ entry ∈ defaultProps t ++ creationProps t, Holds t.name entry.1 entry.2 := by
  cases t <;> decide +kernel

theorem sound_of_create? {type id : String} {x y : Num} {e : Element}
    (h : create? type id x y = some e) : e.Sound := by
  unfold create? at h
  split at h
  · next t ht =>
    split at h
    · next hc =>
      obtain rfl := Option.some.inj h
      exact ⟨⟨t, ElementType.ofName?_name t, hc⟩, .ofList (holds_of_mem_created t)⟩
    · simp at h
  · simp at h

/-- An edit that leaves the id and the type alone, and after which the props belong to the type. -/
structure KeepsSound (f : Element → Edited) : Prop where
  id : ∀ e, (f e).2.id = e.id
  sound : ∀ e : Element, e.Sound → (f e).2.Sound

theorem keepsSound_setPosition (x y : Num) : KeepsSound fun e => e.setPosition x y :=
  ⟨fun _ => rfl, fun _ he => ⟨he.type, he.props⟩⟩

/-- A move changes the place only, also when it fails. -/
theorem exists_moveBy_eq (e : Element) (dx dy : Num) :
    ∃ x y, (e.moveBy dx dy).2 = { e with x := x, y := y } := by
  unfold moveBy moveAcross
  cases e.x.add dx with
  | error err => exact ⟨e.x, e.y, rfl⟩
  | ok x =>
    dsimp only
    unfold moveDown
    dsimp only
    cases e.y.add dy with
    | error err => exact ⟨x, e.y, rfl⟩
    | ok y => exact ⟨x, y, rfl⟩

theorem keepsSound_moveBy (dx dy : Num) : KeepsSound fun e => e.moveBy dx dy := by
  refine ⟨fun e => ?_, fun e he => ?_⟩
  · obtain ⟨x, y, h⟩ := e.exists_moveBy_eq dx dy
    rw [h]
  · obtain ⟨x, y, h⟩ := e.exists_moveBy_eq dx dy
    rw [h]
    exact ⟨he.type, he.props⟩

theorem keepsSound_resize (least w h : Num) : KeepsSound fun e => e.resize least w h :=
  ⟨fun _ => rfl, fun _ he => ⟨he.type, he.props⟩⟩

theorem keepsSound_rename (name : String) : KeepsSound fun e => e.rename name := by
  refine ⟨fun e => ?_, fun e he => ?_⟩
  · unfold rename
    dsimp only
    split <;> rfl
  · unfold rename
    dsimp only
    split
    · exact he
    · exact ⟨he.type, he.props⟩

theorem keepsSound_setProperty (key : String) (value : Json) :
    KeepsSound fun e => e.setProperty key value := by
  refine ⟨fun e => ?_, fun e he => ?_⟩
  · unfold setProperty
    split <;> rfl
  · unfold setProperty
    split
    · exact he
    · exact he
    · exact ⟨he.type, he.props.filter _⟩
    · next v _ hv => exact ⟨he.type, he.props.insert (holds_of_coerceProp hv)⟩

end Element

/-! ## Scenes -/

/-- A consistent scene of sound elements. -/
structure Scene.Sound (s : Scene) : Prop extends s.Consistent where
  elements : ∀ entry ∈ s.elements.entries, entry.2.Sound

namespace Scene.Sound

variable {s : Scene} (h : s.Sound)

include h

theorem id_of_get? {key : String} {e : Element} (he : s.elements.get? key = some e) : e.id = key :=
  h.keys _ (Table.mem_of_get? he)

/-- A scene with a sound element under a new id. -/
theorem add {e : Element} (he : e.Sound) (hnew : e.id ∉ s.elements.keys) : (s.add e).Sound := by
  have hentries : (s.add e).elements.entries = s.elements.entries ++ [(e.id, e)] :=
    Table.insert_of_notMem hnew e
  have hkeys : (s.add e).elements.keys = s.elements.keys ++ [e.id] := by
    rw [Table.keys, hentries, Entries.keys, List.map_append]
    rfl
  refine ⟨⟨fun entry hentry => ?_, ?_, h.selection_nodup, fun id hid => ?_⟩, fun entry hentry => ?_⟩
  · rw [hentries] at hentry
    rcases List.mem_append.1 hentry with hentry | hentry
    · exact h.keys entry hentry
    · rw [List.mem_singleton.1 hentry]
  · rw [hkeys]
    exact h.order.append_right [e.id]
  · rw [hkeys]
    exact List.mem_append_left _ (h.selection_mem id hid)
  · rw [hentries] at hentry
    rcases List.mem_append.1 hentry with hentry | hentry
    · exact h.elements entry hentry
    · rw [List.mem_singleton.1 hentry]
      exact he

theorem remove (id : String) : (s.remove id).Sound := by
  have hkeys : (s.remove id).elements.keys = s.elements.keys.filter fun key => key ≠ id :=
    Table.keys_erase s.elements id
  refine ⟨⟨fun entry hentry => h.keys entry (List.mem_of_mem_filter hentry), ?_,
    h.selection_nodup.filter _, fun key hkey => ?_⟩,
    fun entry hentry => h.elements entry (List.mem_of_mem_filter hentry)⟩
  · rw [hkeys]
    exact h.order.filter _
  · obtain ⟨hkey, hne⟩ := List.mem_filter.1 hkey
    rw [hkeys]
    exact List.mem_filter.2 ⟨h.selection_mem key hkey, hne⟩

theorem removeSelected : s.removeSelected.Sound := by
  have hkeys : s.removeSelected.elements.keys =
      s.elements.keys.filter fun key => !s.selection.contains key := by
    simp only [Scene.removeSelected, Table.filter, Table.keys, Entries.keys, List.filter_map]
    rfl
  refine ⟨⟨fun entry hentry => h.keys entry (List.mem_of_mem_filter hentry), ?_, List.nodup_nil,
    by simp [Scene.removeSelected]⟩,
    fun entry hentry => h.elements entry (List.mem_of_mem_filter hentry)⟩
  have horder : s.removeSelected.order =
      s.order.filter fun key => !s.selection.contains key := by
    refine List.filter_congr fun key hkey => ?_
    have hmem : key ∈ s.elements.keys := h.order.mem_iff.1 hkey
    have hiff : key ∈ s.removeSelected.elements.keys ↔ key ∉ s.selection := by
      rw [hkeys, List.mem_filter]
      simp [hmem]
    rw [Bool.eq_iff_iff]
    exact (Table.contains_iff.trans hiff).trans (by simp)
  rw [horder, hkeys]
  exact h.order.filter _

theorem select (ids : List String) : (s.select ids).Sound := by
  have hselectable : ∀ selection : List String,
      (selection.Nodup ∧ ∀ id ∈ selection, id ∈ s.elements.keys) →
      (ids.foldl (fun selection id =>
        if s.elements.contains id && !selection.contains id then selection ++ [id] else selection)
          selection).Nodup ∧
      ∀ key ∈ ids.foldl (fun selection id =>
        if s.elements.contains id && !selection.contains id then selection ++ [id] else selection)
          selection, key ∈ s.elements.keys := by
    induction ids with
    | nil => exact fun _ hselection => hselection
    | cons id ids ih =>
      intro selection hselection
      refine ih _ ?_
      dsimp only
      split
      · next hid =>
        simp only [Bool.and_eq_true, Table.contains_iff, Bool.not_eq_true', List.contains_eq_mem,
          decide_eq_false_iff_not] at hid
        refine ⟨List.nodup_append.2 ⟨hselection.1, by simp, ?_⟩, fun key hkey => ?_⟩
        · rintro a ha b hb rfl
          exact hid.2 (List.mem_singleton.1 hb ▸ ha)
        · rcases List.mem_append.1 hkey with hkey | hkey
          · exact hselection.2 key hkey
          · rw [List.mem_singleton.1 hkey]
            exact hid.1
      · exact hselection
  obtain ⟨hnodup, hmem⟩ := hselectable [] (by simp)
  exact ⟨⟨h.keys, h.order, hnodup, hmem⟩, h.elements⟩

/-- A scene with an element replaced by a sound one of its id. -/
theorem replace {key : String} (hkey : key ∈ s.elements.keys) {e : Element} (hid : e.id = key)
    (he : e.Sound) : (s.replace key e).Sound := by
  have hkeys : (s.replace key e).elements.keys = s.elements.keys :=
    (Table.keys_insert s.elements key e).trans (if_pos hkey)
  refine ⟨⟨fun entry hentry => ?_, ?_, h.selection_nodup, ?_⟩, fun entry hentry => ?_⟩
  · rcases Table.mem_of_mem_insert hentry with hentry | rfl
    · exact h.keys entry hentry
    · exact hid
  · rw [hkeys]
    exact h.order
  · rw [hkeys]
    exact h.selection_mem
  · rcases Table.mem_of_mem_insert hentry with hentry | rfl
    · exact h.elements entry hentry
    · exact he

end Scene.Sound

theorem Scene.sound_empty : Scene.empty.Sound :=
  ⟨⟨by simp [empty, Table.empty], by simp [empty, Table.empty, Table.keys, Entries.keys],
    List.nodup_nil, by simp [empty]⟩, by simp [empty, Table.empty]⟩

/-! ## Findings -/

namespace Validation

theorem selectionFindings_eq_nil {keys ids : List String} (h : ∀ id ∈ ids, id ∈ keys) (n : ℕ) :
    selectionFindings keys n ids = [] := by
  induction ids generalizing n with
  | nil => rfl
  | cons id ids ih =>
    have hid : keys.contains id = true := by simpa using h id List.mem_cons_self
    rw [selectionFindings, if_pos hid, List.nil_append]
    exact ih (fun id' hid' => h id' (List.mem_cons_of_mem _ hid')) _

theorem idsOf_map_str (ids : List String) : idsOf (ids.map Json.str) = ids := by
  induction ids with
  | nil => rfl
  | cons id ids ih => exact congrArg (id :: ·) ih

/-- An element under its id, with props of its type, breaks no rule. -/
theorem elementFindings_eq_nil {e : Element} (he : SoundProps e.type e.props) :
    keyFindings e.id e.toJson ++ propFindings e.id e.toJson = [] := by
  have hkey : keyFindings e.id e.toJson = [] := by
    have htext : (memberOf e.toJson "id").isText e.id = true := by
      simp [memberOf, Element.toJson, Json.member?, Entries.get?, Json.isText]
    rw [keyFindings]
    exact if_pos htext
  have hprops : propFindings e.id e.toJson = [] := by
    have hmembers : membersOf (memberOf e.toJson "props") = e.props.entries := by
      simp [membersOf, memberOf, Element.toJson, Json.member?, Entries.get?]
    have htype : (memberOf e.toJson "type").stringD = e.type := by
      simp [memberOf, Element.toJson, Json.member?, Entries.get?, Json.stringD, Json.string?]
    rw [propFindings, hmembers, List.flatMap_eq_nil_iff]
    intro prop hprop
    obtain ⟨spec, hspec, -⟩ := he prop hprop
    rw [htype, hspec]
  rw [hkey, hprops, List.nil_append]

end Validation

/-- The document of a sound scene breaks no rule that ties its parts together. -/
theorem Scene.Sound.invariantFindings_eq_nil {s : Scene} (h : s.Sound) :
    Validation.invariantFindings s.toDocument = [] := by
  have helements : Validation.membersOf (Validation.memberOf s.toDocument "elements") =
      s.elements.entries.map fun e => (e.1, e.2.toJson) := by
    simp [Validation.membersOf, Validation.memberOf, toDocument, Json.member?, Entries.get?]
  have horder : Validation.itemsOf (Validation.memberOf s.toDocument "root_order") =
      s.order.map Json.str := by
    simp [Validation.itemsOf, Validation.memberOf, toDocument, Json.member?, Entries.get?]
  have hselection : Validation.itemsOf (Validation.memberOf s.toDocument "selection") =
      s.selection.map Json.str := by
    simp [Validation.itemsOf, Validation.memberOf, toDocument, Json.member?, Entries.get?]
  have hkeys : (s.elements.entries.map fun e => (e.1, e.2.toJson)).map Prod.fst =
      s.elements.keys := by
    rw [List.map_map]
    rfl
  rw [Validation.invariantFindings]
  rw [helements, horder, hselection, hkeys, Validation.idsOf_map_str, Validation.idsOf_map_str,
    Validation.selectionFindings_eq_nil h.selection_mem, Validation.orderFindings,
    if_pos (List.isPerm_iff.2 h.order), List.append_nil, List.append_nil, List.flatMap_eq_nil_iff]
  intro entry hentry
  obtain ⟨⟨key, e⟩, hmem, rfl⟩ := List.mem_map.1 hentry
  obtain rfl : e.id = key := h.keys _ hmem
  exact Validation.elementFindings_eq_nil (h.elements _ hmem).props

end SceneScript
