import SceneScript.Proofs.Scene.Valid
import SceneScript.Scene.Document

/-!
# Loading documents that pass

Loading looks at the parts of a document one by one and fails on the first that it cannot take. A
document that passes has all of them, and its parts fit together.

Main statement: a document that passes loads, the scene is valid, and its elements are read from
those of the document (`Scene.exists_ofDocument`).
-/

namespace SceneScript

open Validation

/-! ## Elements -/

/-- That an element is what the members of an object say. -/
structure Element.ReadFrom (members : List (String × Json)) (e : Element) : Prop where
  id : Entries.get? members "id" = some (.str e.id)
  type : Entries.get? members "type" = some (.str e.type)
  name : Entries.get? members "name" = some (.str e.name)
  x : Entries.get? members "x" = some (.num e.x)
  y : Entries.get? members "y" = some (.num e.y)
  w : Entries.get? members "w" = some (.num e.w)
  h : Entries.get? members "h" = some (.num e.h)
  props : ∃ props, Entries.get? members "props" = some (.obj props) ∧ e.props = Table.ofList props

namespace RawElement

theorem field_eq {members : List (String × Json)} {name : String} {v : Json}
    (h : Entries.get? members name = some v) : field members name = .ok v := by
  rw [field, h]

theorem propsOf_obj (members : List (String × Json)) :
    propsOf (.obj members) = .ok (Table.ofList members) := by
  cases members <;> rfl

end RawElement

namespace Element

/-- An element as it is loaded. -/
def toRaw (e : Element) : RawElement :=
  ⟨e.id, e.type, e.name, .num e.x, .num e.y, .num e.w, .num e.h, e.props⟩

theorem ReadFrom.ofJson_eq {members : List (String × Json)} {e : Element} (h : e.ReadFrom members) :
    RawElement.ofJson (.obj members) = .ok e.toRaw := by
  obtain ⟨props, hprops, hp⟩ := h.props
  rw [RawElement.ofJson]
  simp only [RawElement.field_eq h.id, RawElement.field_eq h.type, RawElement.field_eq h.name,
    RawElement.field_eq h.x, RawElement.field_eq h.y, RawElement.field_eq h.w,
    RawElement.field_eq h.h, hprops, Option.getD_some, RawElement.propsOf_obj, bind, Except.bind,
    ← hp]
  rfl

/-- An object of the right shape is read as an element of the right shape. -/
theorem exists_readFrom {v : Json} (h : elementCheck v = []) :
    ∃ members, ∃ e : Element, v = .obj members ∧ e.ReadFrom members ∧ e.Shaped := by
  obtain ⟨members, rfl, -, hfields⟩ := elementCheck_eq_nil.1 h
  simp only [elementFields, List.forall_mem_cons, List.not_mem_nil, false_implies, implies_true,
    and_true, solidText_eq_nil, type_eq_nil, visibleText_eq_nil, Check.ofTypes_number, size_eq_nil,
    props_eq_nil] at hfields
  obtain ⟨⟨_, hid, id, rfl, hsolid⟩, ⟨_, htype, t, rfl, hcreatable⟩,
    ⟨_, hname, name, rfl, hvisible⟩, ⟨_, hx, x, rfl⟩, ⟨_, hy, y, rfl⟩, ⟨_, hw, w, rfl, hw0⟩,
    ⟨_, hh, h, rfl, hh0⟩, ⟨_, hprops, props, rfl, hstorable⟩⟩ := hfields
  refine ⟨members, ⟨id, t.name, name, x, y, w, h, Table.ofList props⟩, rfl,
    ⟨hid, htype, hname, hx, hy, hw, hh, props, hprops, rfl⟩,
    hsolid, ⟨t, ElementType.ofName?_name t, hcreatable⟩, hvisible, hw0, hh0, fun prop hprop => ?_⟩
  exact hstorable prop (Table.mem_of_mem_ofList hprop)

end Element

/-! ## Scenes -/

/-- An entry of a document's elements, and the entry that it is read as. -/
def Scene.EntryReads (raw : String × Json) (entry : String × Element) : Prop :=
  raw.1 = entry.1 ∧ ∃ members, raw.2 = .obj members ∧ entry.2.ReadFrom members ∧ entry.2.Shaped

namespace RawScene

/-- Entries as they are loaded. -/
def entriesOf (entries : List (String × Element)) : List (String × RawElement) :=
  entries.map fun entry => (entry.1, entry.2.toRaw)

theorem keys_entriesOf (entries : List (String × Element)) :
    Entries.keys (entriesOf entries) = Entries.keys entries := by
  simp [entriesOf, Entries.keys]

theorem numbered_entriesOf (entries : List (String × Element)) :
    numbered (entriesOf entries) = .ok entries := by
  induction entries with
  | nil => rfl
  | cons entry entries ih =>
    rw [entriesOf] at ih
    rw [entriesOf, List.map_cons, numbered, ih]
    rfl

/-- The elements keep their keys. -/
theorem keys_of_numbered {entries : List (String × RawElement)} {es : List (String × Element)}
    (h : numbered entries = .ok es) : Entries.keys es = Entries.keys entries := by
  induction entries generalizing es with
  | nil =>
    cases h
    rfl
  | cons entry entries ih =>
    obtain ⟨e, -, h⟩ := bind_eq_ok.1 h
    obtain ⟨es', hes', h⟩ := bind_eq_ok.1 h
    cases h
    rw [Entries.keys_cons, Entries.keys_cons, ih hes']

theorem exists_elementsOf {raw : List (String × Json)}
    (h : ∀ entry ∈ raw, elementCheck entry.2 = []) :
    ∃ entries, elementsOf raw = .ok (entriesOf entries) ∧
      List.Forall₂ Scene.EntryReads raw entries := by
  induction raw with
  | nil => exact ⟨[], rfl, .nil⟩
  | cons entry raw ih =>
    obtain ⟨key, v⟩ := entry
    obtain ⟨members, e, rfl, hread, hshaped⟩ := Element.exists_readFrom (h _ List.mem_cons_self)
    obtain ⟨entries, hentries, hall⟩ :=
      ih fun entry hentry => h entry (List.mem_cons_of_mem _ hentry)
    refine ⟨(key, e) :: entries, ?_, .cons ⟨rfl, members, rfl, hread, hshaped⟩ hall⟩
    rw [elementsOf, hread.ofJson_eq, hentries]
    rfl

/-- Texts are taken as they are. -/
theorem mapM_taken_comp_str (ids : List String) : ids.mapM (Json.taken ∘ Json.str) = .ok ids :=
  mapM_eq_ok_iff.2 (List.forall₂_same.2 fun _ _ => rfl)

theorem selectionOf_map_str {elements : Table RawElement} {ids : List String}
    (h : ∀ id ∈ ids, id ∈ elements.keys) : selectionOf elements (ids.map .str) = .ok ids := by
  induction ids with
  | nil => rfl
  | cons id ids ih =>
    have hid : elements.contains id = true := Table.contains_iff.2 (h id List.mem_cons_self)
    simp only [List.map_cons, selectionOf, Json.isKey, if_true,
      ih fun id' hid' => h id' (List.mem_cons_of_mem _ hid'), bind, Except.bind, hid]
    rfl

end RawScene

namespace Scene

/-- An entry that fits together is read as that of a valid element under its id. -/
theorem EntryReads.valid {raw : String × Json} {entry : String × Element} (h : EntryReads raw entry)
    (hid : memberOf raw.2 "id" = .str raw.1)
    (hknown : ∀ prop ∈ membersOf (memberOf raw.2 "props"),
      ∃ spec, propSpec? (memberOf raw.2 "type").stringD prop.1 = some spec) :
    entry.2.id = entry.1 ∧ entry.2.Valid := by
  obtain ⟨key, v⟩ := raw
  obtain ⟨rfl, members, rfl, hread, hshaped⟩ := h
  obtain ⟨props, hprops, hp⟩ := hread.props
  simp only [memberOf, Json.member?, hread.id, hread.type, hprops, Option.getD_some, membersOf,
    Json.stringD, Json.string?, Json.str.injEq] at hid hknown
  refine ⟨hid, hshaped, fun prop hprop => ?_⟩
  rw [hp] at hprop
  exact hknown prop (Table.mem_of_mem_ofList hprop)

/-- The selection of a document, whether it has one or not. -/
theorem exists_selection {members : List (String × Json)}
    (h : ∀ member, Entries.get? members "selection" = some member →
      ∃ selection : List String, member = .arr (selection.map .str) ∧
        (∀ id ∈ selection, id ≠ "") ∧ selection.Nodup) :
    ∃ selection : List String,
      RawScene.itemsOf members "selection" = .ok (selection.map .str) ∧
      idsOf (Validation.itemsOf (memberOf (.obj members) "selection")) = selection ∧
      selection.Nodup := by
  cases hmember : Entries.get? members "selection" with
  | none =>
    refine ⟨[], by simp [RawScene.itemsOf, hmember], ?_, List.nodup_nil⟩
    simp [memberOf, Json.member?, hmember, Validation.itemsOf, idsOf]
  | some v =>
    obtain ⟨selection, rfl, -, hnodup⟩ := h v hmember
    refine ⟨selection, by simp [RawScene.itemsOf, hmember, Json.items?], ?_, hnodup⟩
    simp [memberOf, Json.member?, hmember, Validation.itemsOf, idsOf_map_str]

/-- A document whose lists fit together loads as its elements, in its order. -/
theorem ofDocument_eq {members raw : List (String × Json)} {order selection : List String}
    {entries : List (String × Element)}
    (hraw : Entries.get? members "elements" = some (.obj raw))
    (hentries : RawScene.elementsOf raw = .ok (RawScene.entriesOf entries))
    (horder : RawScene.itemsOf members "root_order" = .ok (order.map .str))
    (hselection : RawScene.itemsOf members "selection" = .ok (selection.map .str))
    (hnodup : (Entries.keys entries).Nodup) (hperm : order.Perm (Entries.keys entries))
    (hmem : ∀ id ∈ selection, id ∈ Entries.keys entries) :
    ofDocument (.obj members) = .ok ⟨order, Table.ofList entries, selection⟩ := by
  have htable : (Table.ofList (RawScene.entriesOf entries)).entries = RawScene.entriesOf entries :=
    Entries.ofList_of_nodup (RawScene.keys_entriesOf entries ▸ hnodup)
  have hkeys : (Table.ofList (RawScene.entriesOf entries)).keys = Entries.keys entries :=
    (congrArg Entries.keys htable).trans (RawScene.keys_entriesOf entries)
  rw [← hkeys] at hperm hmem
  have hload : RawScene.ofDocument (.obj members) =
      .ok ⟨order, Table.ofList (RawScene.entriesOf entries), selection⟩ := by
    simp [RawScene.ofDocument, RawScene.membersOfElements, hraw, hentries, horder, hselection,
      RawScene.mapM_taken_comp_str, List.isPerm_iff.2 hperm, RawScene.selectionOf_map_str hmem,
      bind, Except.bind, pure, Except.pure]
  refine bind_eq_ok.2 ⟨_, hload, bind_eq_ok.2 ⟨entries, ?_, rfl⟩⟩
  rw [htable, RawScene.numbered_entriesOf]

/-- A document that passes loads, and gives a valid scene whose elements are those of the
document. -/
theorem exists_ofDocument {origin : Json.Origin} {document : Json}
    (h : issues origin document = .ok []) :
    ∃ s, ofDocument document = .ok s ∧ s.Valid ∧
      List.Forall₂ EntryReads (membersOf (memberOf document "elements")) s.elements.entries := by
  obtain ⟨hshape, hfit⟩ := issues_eq_nil.1 h
  obtain ⟨members, rfl, -, -, ⟨order, horder, -, hnodup⟩, ⟨raw, hraw, helements⟩, hselection⟩ :=
    documentCheck_eq_nil.1 hshape
  obtain ⟨entries, hentries, hall⟩ := RawScene.exists_elementsOf helements
  obtain ⟨selection, hitems, hids, hselnodup⟩ := exists_selection hselection
  have hkeys : raw.map Prod.fst = Entries.keys entries := map_eq_of_forall₂ (fun _ _ h => h.1) hall
  have hmembers : membersOf (memberOf (.obj members) "elements") = raw := by
    simp [membersOf, memberOf, Json.member?, hraw]
  have horderIds : idsOf (Validation.itemsOf (memberOf (.obj members) "root_order")) = order := by
    simp [Validation.itemsOf, memberOf, Json.member?, horder, idsOf_map_str]
  have horderItems : RawScene.itemsOf members "root_order" = .ok (order.map .str) := by
    simp [RawScene.itemsOf, horder, Json.items?]
  rw [invariantFindings_eq_nil, hmembers, hids, horderIds, hkeys] at hfit
  obtain ⟨hfit, hperm, hmem⟩ := hfit
  -- keys are those of the order, so none of them comes twice
  have hkeysNodup := hperm.nodup_iff.1 hnodup
  have htable : (Table.ofList entries).entries = entries := Entries.ofList_of_nodup hkeysNodup
  have hload := ofDocument_eq hraw hentries horderItems hitems hkeysNodup hperm hmem
  have htableKeys : (Table.ofList entries).keys = Entries.keys entries :=
    congrArg Entries.keys htable
  rw [← htableKeys] at hperm hmem
  refine ⟨⟨order, Table.ofList entries, selection⟩, hload, ⟨⟨fun entry hentry => ?_, hperm,
    hselnodup, hmem⟩, fun entry hentry => ?_⟩, ?_⟩
  · rw [htable] at hentry
    obtain ⟨raw', hraw', hreads⟩ := exists_of_mem_right hall hentry
    exact (hreads.valid (hfit raw' hraw').1 (hfit raw' hraw').2).1
  · rw [htable] at hentry
    obtain ⟨raw', hraw', hreads⟩ := exists_of_mem_right hall hentry
    exact (hreads.valid (hfit raw' hraw').1 (hfit raw' hraw').2).2
  · rw [hmembers, htable]
    exact hall

end Scene

end SceneScript
