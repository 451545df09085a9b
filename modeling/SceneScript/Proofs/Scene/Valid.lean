import SceneScript.Proofs.Scene.Sound
import SceneScript.Proofs.Validation.Document

/-!
# Valid scenes

A scene is valid when its document passes. What that asks of the elements is less than that they
are readable and does not follow from their being sound: ids and names may not be blank and sizes
may not be negative, but a prop may hold a text where a number belongs.

Main statement: a scene is valid exactly when its document has no issues
(`Scene.issues_toDocument`).
-/

namespace SceneScript

theorem PropKind.Holds.storable {k : PropKind} {v : Json} (h : k.Holds v) : v.Storable := by
  cases k <;> cases v <;> trivial

/-- The name that a new element gets is not blank: it has an underscore. -/
theorem Validation.visible_defaultName (type id : String) : Visible (type ++ "_" ++ id) :=
  ⟨'_', by simp, by decide⟩

/-- An element whose document is of the right shape. -/
structure Element.Shaped (e : Element) : Prop where
  /-- The id has no white space, save for one line break at its end. -/
  id : Validation.Solid e.id
  /-- The type can be created. -/
  type : ∃ t, ElementType.ofName? e.type = some t ∧ t.isCreatable = true
  /-- The name is not blank. -/
  name : Validation.Visible e.name
  /-- The width is not negative. -/
  w : e.w.lt 0 = false
  /-- The height is not negative. -/
  h : e.h.lt 0 = false
  /-- The props are texts, numbers or null. -/
  storable : ∀ entry ∈ e.props.entries, entry.2.Storable

/-- An element that a document may have: the props belong to the type, too. -/
structure Element.Valid (e : Element) : Prop extends e.Shaped where
  known : ∀ entry ∈ e.props.entries, ∃ spec, propSpec? e.type entry.1 = some spec

/-- A consistent scene of valid elements. -/
structure Scene.Valid (s : Scene) : Prop extends s.Consistent where
  elements : ∀ entry ∈ s.elements.entries, entry.2.Valid

/-- The keys of a valid scene are ids. -/
theorem Scene.Valid.solid_of_mem_keys {s : Scene} (h : s.Valid) :
    ∀ key ∈ s.elements.keys, Validation.Solid key := by
  intro key hkey
  obtain ⟨entry, hentry, rfl⟩ := List.mem_map.1 hkey
  exact h.keys entry hentry ▸ (h.elements entry hentry).id

namespace Element

open Validation

variable {e : Element}

theorem exists_type_iff {type : String} :
    (∃ t : ElementType, type = t.name ∧ t.isCreatable = true) ↔
      ∃ t, ElementType.ofName? type = some t ∧ t.isCreatable = true := by
  refine exists_congr fun t => and_congr_left' ?_
  constructor
  · intro h
    rw [h, ElementType.ofName?_name]
  · exact fun h => (ElementType.name_of_ofName? h).symm

/-- An element's document is of the right shape exactly when the element is. -/
theorem elementCheck_toJson : elementCheck e.toJson = [] ↔ e.Shaped := by
  have hshape : elementCheck e.toJson = [] ↔
      Solid e.id ∧ (∃ t : ElementType, e.type = t.name ∧ t.isCreatable = true) ∧
        Visible e.name ∧ e.w.lt 0 = false ∧ e.h.lt 0 = false ∧
        ∀ entry ∈ e.props.entries, entry.2.Storable := by
    rw [elementCheck_eq_nil, toJson]
    simp [-Prod.forall, elementFields, Entries.get?, solidText_eq_nil, visibleText_eq_nil,
      size_eq_nil, type_eq_nil, props_eq_nil, Check.ofTypes_number]
  rw [hshape, exists_type_iff]
  constructor
  · rintro ⟨hid, htype, hname, hw, hh, hstorable⟩
    exact ⟨hid, htype, hname, hw, hh, hstorable⟩
  · exact fun h => ⟨h.id, h.type, h.name, h.w, h.h, h.storable⟩

theorem valid_iff :
    e.Valid ↔ e.Shaped ∧ ∀ entry ∈ e.props.entries, ∃ spec, propSpec? e.type entry.1 = some spec :=
  ⟨fun h => ⟨h.toShaped, h.known⟩, fun h => ⟨h.1, h.2⟩⟩

/-- The members of an element's document that tie it to its key and its type. -/
theorem findings_eq_nil {key : String} :
    (memberOf e.toJson "id" = .str key ∧
      ∀ prop ∈ membersOf (memberOf e.toJson "props"),
        ∃ spec, propSpec? (memberOf e.toJson "type").stringD prop.1 = some spec) ↔
    e.id = key ∧ ∀ entry ∈ e.props.entries, ∃ spec, propSpec? e.type entry.1 = some spec := by
  simp [memberOf, membersOf, toJson, Json.member?, Entries.get?, Json.stringD, Json.string?]

end Element

namespace Scene

open Validation

variable {s : Scene} {origin : Json.Origin}

theorem documentCheck_toDocument :
    documentCheck origin s.toDocument = [] ↔
      ((∀ id ∈ s.order, id ≠ "") ∧ s.order.Nodup) ∧
      (∀ entry ∈ s.elements.entries, elementCheck entry.2.toJson = []) ∧
      (∀ id ∈ s.selection, id ≠ "") ∧ s.selection.Nodup := by
  have hstr : Function.Injective Json.str := fun _ _ h => Json.str.inj h
  rw [documentCheck_eq_nil, toDocument]
  simp [-Prod.forall, -List.mem_map, documentFields, Entries.get?, schemaVersion,
    List.map_inj_right, hstr.eq_iff, List.forall_mem_map]

theorem invariantFindings_toDocument :
    invariantFindings s.toDocument = [] ↔
      (∀ entry ∈ s.elements.entries, entry.2.id = entry.1 ∧
        ∀ prop ∈ entry.2.props.entries, ∃ spec, propSpec? entry.2.type prop.1 = some spec) ∧
      s.order.Perm s.elements.keys ∧ ∀ id ∈ s.selection, id ∈ s.elements.keys := by
  have hkeys : (s.elements.entries.map fun e => (e.1, e.2.toJson)).map Prod.fst =
      s.elements.keys := by
    rw [List.map_map]
    rfl
  have helements : membersOf (memberOf s.toDocument "elements") =
      s.elements.entries.map fun e => (e.1, e.2.toJson) := by
    simp [membersOf, memberOf, toDocument, Json.member?, Entries.get?]
  have horder : idsOf (Validation.itemsOf (memberOf s.toDocument "root_order")) = s.order := by
    simp [Validation.itemsOf, memberOf, toDocument, Json.member?, Entries.get?, idsOf_map_str]
  have hselection :
      idsOf (Validation.itemsOf (memberOf s.toDocument "selection")) = s.selection := by
    simp [Validation.itemsOf, memberOf, toDocument, Json.member?, Entries.get?, idsOf_map_str]
  rw [invariantFindings_eq_nil, helements, horder, hselection, hkeys, List.forall_mem_map]
  simp only [Element.findings_eq_nil]

/-- A scene is valid exactly when its document has no issues. -/
theorem issues_toDocument : issues origin s.toDocument = .ok [] ↔ s.Valid := by
  rw [issues_eq_nil, documentCheck_toDocument, invariantFindings_toDocument]
  simp only [Element.elementCheck_toJson]
  constructor
  · rintro ⟨⟨-, hshape, -, hselection⟩, hentries, horder, hmem⟩
    exact ⟨⟨fun entry hentry => (hentries entry hentry).1, horder, hselection, hmem⟩,
      fun entry hentry => Element.valid_iff.2 ⟨hshape entry hentry, (hentries entry hentry).2⟩⟩
  · intro h
    have hne : ∀ id ∈ s.elements.keys, id ≠ "" :=
      fun id hid => (h.solid_of_mem_keys id hid).ne_empty
    have hentries := fun entry hentry => Element.valid_iff.1 (h.elements entry hentry)
    exact ⟨⟨⟨fun id hid => hne id (h.order.mem_iff.1 hid), h.order.nodup_iff.2 s.elements.nodup⟩,
        fun entry hentry => (hentries entry hentry).1,
        fun id hid => hne id (h.selection_mem id hid), h.selection_nodup⟩,
      fun entry hentry => ⟨h.keys entry hentry, (hentries entry hentry).2⟩, h.order,
      h.selection_mem⟩

end Scene

end SceneScript
