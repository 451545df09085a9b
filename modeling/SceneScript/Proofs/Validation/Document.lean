import SceneScript.Proofs.Validation.Check
import SceneScript.Validation.Scene

/-!
# What a passing document is made of

A document without issues is an object with just the members that it should have, each of them of
the right shape, and its parts fit together.

Main statements:

* `Validation.issues_eq_nil`: a document has no issues when its shape is right and its parts fit
  together.
* `Validation.elementCheck_eq_nil`, `Validation.documentCheck_eq_nil`: what the right shape is.
* `Validation.invariantFindings_eq_nil`: what it is to fit together.
-/

namespace SceneScript

/-- The values that a document may have for a prop: texts, numbers, and null. -/
def Json.Storable : Json → Prop
  | .str _ | .num _ | .null => True
  | _ => False

namespace Validation

theorem inPathOrder_eq_nil {findings : List Finding} :
    inPathOrder findings = [] ↔ findings = [] := by
  have hperm : (inPathOrder findings).Perm findings := List.mergeSort_perm _ _
  constructor
  · intro h
    rw [h] at hperm
    exact hperm.nil_eq.symm
  · intro h
    rw [h] at hperm
    rw [h]
    exact hperm.eq_nil

/-- The parts of a document are looked at together only when its shape is right. -/
theorem findings_eq_nil {origin : Json.Origin} {document : Json} :
    findings origin document = [] ↔
      documentCheck origin document = [] ∧ invariantFindings document = [] := by
  rw [findings]
  cases hshape : inPathOrder (documentCheck origin document) with
  | nil => exact (and_iff_right (inPathOrder_eq_nil.1 hshape)).symm
  | cons finding findings =>
    refine iff_of_false (List.cons_ne_nil _ _) fun h => ?_
    rw [h.1, inPathOrder_eq_nil.2 rfl] at hshape
    exact List.cons_ne_nil _ _ hshape.symm

/-- There are no issues when nothing is found. -/
theorem issues_eq_nil {origin : Json.Origin} {document : Json} :
    issues origin document = .ok [] ↔
      documentCheck origin document = [] ∧ invariantFindings document = [] := by
  rw [issues, mapM_eq_ok_iff, List.forall₂_nil_right_iff, findings_eq_nil]

theorem status_eq_pass_iff {found : List Issue} : status found = "PASS" ↔ found = [] := by
  cases found <;> simp [status]

/-- A document passes when there are no issues. -/
theorem status_eq_pass {origin : Json.Origin} {document : Json} :
    (issues origin document).map status = .ok "PASS" ↔ issues origin document = .ok [] := by
  rw [map_eq_ok]
  simp only [status_eq_pass_iff, exists_eq_right]

/-! ## Members -/

section Members

variable {v : Json}

/-- Once the type is right, the other checks are about what is of the type. -/
theorem ofTypes_all_eq_nil {α : Type} {f : α → Json} {types : List Check.ValueType}
    {checks : List Check} (htypes : Check.ofTypes types v = [] ↔ ∃ a, v = f a) :
    Check.all (.ofTypes types :: checks) v = [] ↔
      ∃ a, v = f a ∧ ∀ check ∈ checks, check (f a) = [] := by
  rw [Check.all_eq_nil, List.forall_mem_cons, htypes]
  constructor
  · rintro ⟨⟨a, rfl⟩, h⟩
    exact ⟨a, rfl, h⟩
  · rintro ⟨a, rfl, h⟩
    exact ⟨⟨a, rfl⟩, h⟩

theorem nonEmptyText_eq_nil :
    Check.all [.ofTypes [.string], .nonEmpty] v = [] ↔ ∃ s, v = .str s ∧ s ≠ "" := by
  rw [ofTypes_all_eq_nil Check.ofTypes_string]
  simp [Check.nonEmpty_eq_nil]

theorem solidText_eq_nil :
    Check.all [.ofTypes [.string], .nonEmpty, .solid] v = [] ↔ ∃ s, v = .str s ∧ Solid s := by
  rw [ofTypes_all_eq_nil Check.ofTypes_string]
  refine exists_congr fun s => and_congr_right fun _ => ?_
  simpa [Check.nonEmpty_eq_nil, Check.solid_eq_nil] using Solid.ne_empty

theorem visibleText_eq_nil :
    Check.all [.ofTypes [.string], .nonEmpty, .visible] v = [] ↔ ∃ s, v = .str s ∧ Visible s := by
  rw [ofTypes_all_eq_nil Check.ofTypes_string]
  refine exists_congr fun s => and_congr_right fun _ => ?_
  simpa [Check.nonEmpty_eq_nil, Check.visible_eq_nil] using Visible.ne_empty

theorem size_eq_nil :
    Check.all [.ofTypes [.number], .nonNegative] v = [] ↔ ∃ n, v = .num n ∧ n.lt 0 = false := by
  rw [ofTypes_all_eq_nil Check.ofTypes_number]
  simp [Check.nonNegative_eq_nil]

theorem storable_eq_nil : Check.ofTypes [.string, .number, .null] v = [] ↔ v.Storable := by
  rw [Check.ofTypes_eq_nil]
  rcases v with _ | _ | (_ | _) | _ | _ | _ <;>
    simp [Json.kind, Num.kind, Check.ValueType.ofKind?, Json.Storable]

theorem props_eq_nil :
    Check.all [.ofTypes [.object], .members (.ofTypes [.string, .number, .null])] v = [] ↔
      ∃ props, v = .obj props ∧ ∀ prop ∈ props, prop.2.Storable := by
  rw [ofTypes_all_eq_nil Check.ofTypes_object]
  simp [Check.members_eq_nil, storable_eq_nil]

theorem type_eq_nil :
    Check.oneOf ((ElementType.all.filter ElementType.isCreatable).map ElementType.name) v = [] ↔
      ∃ t : ElementType, v = .str t.name ∧ t.isCreatable = true := by
  have hall : ∀ t : ElementType, t ∈ ElementType.all := by
    intro t
    cases t <;> decide
  rw [Check.oneOf_eq_nil]
  constructor
  · rintro ⟨name, hname, rfl⟩
    obtain ⟨t, ht, rfl⟩ := List.mem_map.1 hname
    exact ⟨t, rfl, (List.mem_filter.1 ht).2⟩
  · rintro ⟨t, rfl, ht⟩
    exact ⟨t.name, List.mem_map_of_mem (List.mem_filter.2 ⟨hall t, ht⟩), rfl⟩

/-- A list of ids is one of distinct texts that are not empty. -/
theorem idsCheck_eq_nil {origin : Json.Origin} :
    idsCheck origin v = [] ↔
      ∃ ids : List String, v = .arr (ids.map .str) ∧ (∀ id ∈ ids, id ≠ "") ∧ ids.Nodup := by
  rw [idsCheck, ofTypes_all_eq_nil Check.ofTypes_array]
  simp only [List.forall_mem_cons, List.not_mem_nil, false_implies, implies_true, and_true]
  constructor
  · rintro ⟨items, rfl, hitems, hunique⟩
    have htexts : ∀ item ∈ items, ∃ s, item = .str s ∧ s ≠ "" := fun item hitem =>
      nonEmptyText_eq_nil.1 (Check.items_eq_nil.1 hitems item hitem)
    have hstr : items = (items.map Json.stringD).map Json.str := by
      rw [List.map_map]
      refine ((List.map_congr_left fun item hitem => ?_).trans (List.map_id _)).symm
      obtain ⟨s, rfl, -⟩ := htexts item hitem
      rfl
    refine ⟨items.map Json.stringD, congrArg _ hstr, fun id hid => ?_,
      Check.unique_eq_nil.1 (by rwa [← hstr])⟩
    obtain ⟨item, hitem, rfl⟩ := List.mem_map.1 hid
    obtain ⟨s, rfl, hs⟩ := htexts item hitem
    exact hs
  · rintro ⟨ids, rfl, hne, hnodup⟩
    refine ⟨_, rfl, Check.items_eq_nil.2 fun item hitem => ?_, Check.unique_eq_nil.2 hnodup⟩
    obtain ⟨id, hid, rfl⟩ := List.mem_map.1 hitem
    exact nonEmptyText_eq_nil.2 ⟨id, rfl, hne id hid⟩

theorem version_eq_nil :
    Check.all [.ofTypes [.string], .constant "1.0.0"] v = [] ↔ v = .str "1.0.0" := by
  rw [ofTypes_all_eq_nil Check.ofTypes_string]
  simp [Check.constant_eq_nil]

theorem elements_eq_nil :
    Check.all [.ofTypes [.object], .members elementCheck] v = [] ↔
      ∃ entries, v = .obj entries ∧ ∀ entry ∈ entries, elementCheck entry.2 = [] := by
  rw [ofTypes_all_eq_nil Check.ofTypes_object]
  simp [Check.members_eq_nil]

end Members

/-! ## Shapes -/

/-- An element has its members, each of the right shape, and no others. -/
theorem elementCheck_eq_nil {v : Json} :
    elementCheck v = [] ↔
      ∃ members, v = .obj members ∧ (∀ m ∈ members, m.1 ∈ elementFields.map Prod.fst) ∧
        ∀ field ∈ elementFields,
          ∃ member, Entries.get? members field.1 = some member ∧ field.2 member = [] := by
  rw [elementCheck, ofTypes_all_eq_nil Check.ofTypes_object]
  simp only [List.forall_mem_cons, List.not_mem_nil, false_implies, implies_true, and_true]
  refine exists_congr fun members => and_congr_right fun _ => ?_
  rw [← Check.required_properties_eq_nil, Check.closed_eq_nil]
  exact and_left_comm

/-- A document has a version, an order of distinct ids, elements of the right shape, and possibly
a selection of distinct ids. -/
theorem documentCheck_eq_nil {origin : Json.Origin} {v : Json} :
    documentCheck origin v = [] ↔
      ∃ members, v = .obj members ∧
        (∀ m ∈ members, m.1 ∈ (documentFields origin).map Prod.fst) ∧
        Entries.get? members "schema_version" = some (.str "1.0.0") ∧
        (∃ order : List String, Entries.get? members "root_order" = some (.arr (order.map .str)) ∧
          (∀ id ∈ order, id ≠ "") ∧ order.Nodup) ∧
        (∃ elements, Entries.get? members "elements" = some (.obj elements) ∧
          ∀ entry ∈ elements, elementCheck entry.2 = []) ∧
        ∀ member, Entries.get? members "selection" = some member →
          ∃ selection : List String, member = .arr (selection.map .str) ∧
            (∀ id ∈ selection, id ≠ "") ∧ selection.Nodup := by
  rw [documentCheck, ofTypes_all_eq_nil Check.ofTypes_object]
  simp only [List.forall_mem_cons, List.not_mem_nil, false_implies, implies_true, and_true]
  refine exists_congr fun members => and_congr_right fun _ => ?_
  constructor
  · rintro ⟨hrequired, hclosed, hproperties⟩
    rw [Check.required_eq_nil] at hrequired
    simp only [Check.properties_eq_nil, documentFields, List.forall_mem_cons, List.not_mem_nil,
      false_implies, implies_true, and_true, version_eq_nil, idsCheck_eq_nil,
      elements_eq_nil] at hproperties
    obtain ⟨version, hversion⟩ := hrequired "schema_version" (by simp)
    obtain ⟨order, horder⟩ := hrequired "root_order" (by simp)
    obtain ⟨elements, helements⟩ := hrequired "elements" (by simp)
    obtain ⟨hconstant, hids, hentries, hselection⟩ := hproperties
    obtain rfl := hconstant _ hversion
    obtain ⟨ids, rfl, hids⟩ := hids _ horder
    obtain ⟨entries, rfl, hentries⟩ := hentries _ helements
    exact ⟨Check.closed_eq_nil.1 hclosed, hversion, ⟨ids, horder, hids⟩,
      ⟨entries, helements, hentries⟩, hselection⟩
  · rintro ⟨hclosed, hversion, ⟨order, horder, hids⟩, ⟨entries, helements, hentries⟩, hselection⟩
    refine ⟨Check.required_eq_nil.2 ?_, Check.closed_eq_nil.2 hclosed,
      Check.properties_eq_nil.2 ?_⟩
    · simp [hversion, horder, helements]
    · simp only [documentFields, List.forall_mem_cons, List.not_mem_nil, false_implies,
        implies_true, and_true, hversion, horder, helements, Option.some.injEq, forall_eq',
        version_eq_nil, idsCheck_eq_nil, elements_eq_nil]
      exact ⟨trivial, ⟨order, rfl, hids⟩, ⟨entries, rfl, hentries⟩, hselection⟩

/-! ## Fitting together -/

theorem keyFindings_eq_nil {key : String} {element : Json} :
    keyFindings key element = [] ↔ memberOf element "id" = .str key := by
  rw [keyFindings, ← Check.isText_iff]
  split <;> simp_all

theorem propFindings_eq_nil {key : String} {element : Json} :
    propFindings key element = [] ↔
      ∀ prop ∈ membersOf (memberOf element "props"),
        ∃ spec, propSpec? (memberOf element "type").stringD prop.1 = some spec := by
  rw [propFindings, List.flatMap_eq_nil_iff]
  refine forall₂_congr fun prop _ => ?_
  cases propSpec? (memberOf element "type").stringD prop.1 <;> simp

theorem orderFindings_eq_nil {order keys : List String} :
    orderFindings order keys = [] ↔ order.Perm keys := by
  rw [orderFindings, ← List.isPerm_iff]
  split <;> simp_all

theorem selectionFindings_eq_nil_iff {keys ids : List String} {n : ℕ} :
    selectionFindings keys n ids = [] ↔ ∀ id ∈ ids, id ∈ keys := by
  induction ids generalizing n with
  | nil => simp [selectionFindings]
  | cons id ids ih =>
    rw [selectionFindings, List.append_eq_nil_iff, ih, List.forall_mem_cons]
    refine and_congr_left' ?_
    rw [← List.contains_iff_mem]
    split <;> simp_all

theorem invariantFindings_eq_nil {document : Json} :
    invariantFindings document = [] ↔
      (∀ entry ∈ membersOf (memberOf document "elements"),
        memberOf entry.2 "id" = .str entry.1 ∧
        ∀ prop ∈ membersOf (memberOf entry.2 "props"),
          ∃ spec, propSpec? (memberOf entry.2 "type").stringD prop.1 = some spec) ∧
      (idsOf (itemsOf (memberOf document "root_order"))).Perm
        ((membersOf (memberOf document "elements")).map Prod.fst) ∧
      ∀ id ∈ idsOf (itemsOf (memberOf document "selection")),
        id ∈ (membersOf (memberOf document "elements")).map Prod.fst := by
  simp only [invariantFindings, List.append_eq_nil_iff, List.flatMap_eq_nil_iff,
    keyFindings_eq_nil, propFindings_eq_nil, orderFindings_eq_nil, selectionFindings_eq_nil_iff,
    and_assoc]

end Validation

end SceneScript
