import SceneScript.Command.Failure
import SceneScript.Proofs.Json.Reading
import SceneScript.Proofs.Table
import SceneScript.Proofs.Traversal
import SceneScript.Validation.Scene

/-!
# Loading any value

Loading goes through a value part by part and refuses the first part that it cannot take. Two things
get past it:

* Four kinds of values stop the loading with an error that is not one of a document
  (`RawScene.Unforeseen`): props that are a list with a part of not two items, an order or a
  selection that cannot be walked through, a selection with a value that cannot be looked up, and a
  value in the place of a text with a whole number of more digits than are written.
* Elements are put under their keys without a look at their ids, so a scene that is loaded has every
  element under its id only if the document has (`RawScene.IdsAreKeys`).

Main statement: there is nothing else. A value that is loaded gives a scene whose order lists every
key once and whose selection names elements, and all other values are refused as documents
(`RawScene.loaded_or_refused`).
-/

namespace SceneScript

open Validation

theorem Json.not_isShort_of_taken {v : Json} {e : SceneError} (h : v.taken = .error e) :
    ¬ v.isShort := by
  intro hshort
  obtain ⟨s, hs⟩ := Json.exists_text (Json.isShort_iff.1 hshort)
  rw [Json.taken, hs] at h
  cases h

/-! ## Elements -/

namespace RawElement

/-- That props are no object and have a part that can be walked through, but has not two items. -/
def Uneven (props : Json) : Prop :=
  (∀ members, props ≠ .obj members) ∧
    ∃ items item parts, props.items? = some items ∧ item ∈ items ∧ item.items? = some parts ∧
      parts.length ≠ 2

section Pairs

variable {items : List Json} {props props' : List (Json × Json)} {index : Nat} {e : SceneError}

/-- Pairs are refused for a part that is none, or for one that has not two items. -/
theorem of_propsOfPairs_error (h : propsOfPairs props index items = .error e) :
    (∃ fault, e = .invalidElement fault) ∨
      ∃ item ∈ items, ∃ parts, item.items? = some parts ∧ parts.length ≠ 2 := by
  induction items generalizing props index with
  | nil => cases h
  | cons item items ih =>
    rw [propsOfPairs] at h
    split at h
    · exact .inl ⟨_, (Except.error.inj h).symm⟩
    · split at h
      · refine (ih h).imp_right ?_
        rintro ⟨item', hmem, hparts⟩
        exact ⟨item', List.mem_cons_of_mem _ hmem, hparts⟩
      · exact .inl ⟨_, (Except.error.inj h).symm⟩
    · next parts hne hparts =>
      refine .inr ⟨item, List.mem_cons_self, parts, hparts, fun hlength => ?_⟩
      obtain ⟨key, value, rfl⟩ := List.length_eq_two.1 hlength
      exact hne key value rfl

/-- Pairs that are taken have two items each. -/
theorem length_of_propsOfPairs (h : propsOfPairs props index items = .ok props') {item : Json}
    (hitem : item ∈ items) {parts : List Json} (hparts : item.items? = some parts) :
    parts.length = 2 := by
  induction items generalizing props index with
  | nil => cases hitem
  | cons first items ih =>
    rw [propsOfPairs] at h
    split at h
    · cases h
    · next key value hpair =>
      split at h
      · rcases List.mem_cons.1 hitem with rfl | hitem
        · rw [hparts] at hpair
          exact congrArg List.length (Option.some.inj hpair)
        · exact ih h hitem
      · cases h
    · cases h

end Pairs

variable {v : Json} {e : SceneError}

theorem of_propsOf_error (h : propsOf v = .error e) :
    (∃ fault, e = .invalidElement fault) ∨ Uneven v := by
  unfold propsOf at h
  split at h
  · cases h
  split at h
  · cases h
  next hobj =>
  split at h
  · exact .inl ⟨_, (Except.error.inj h).symm⟩
  next items hitems =>
  cases hpairs : propsOfPairs [] 0 items with
  | ok props =>
    rw [hpairs] at h
    cases h
  | error e' =>
    rw [hpairs] at h
    cases h
    refine (of_propsOfPairs_error hpairs).imp_right ?_
    rintro ⟨item, hmem, parts, hparts, hlength⟩
    exact ⟨fun members h => hobj members h, items, item, parts, hitems, hmem, hparts, hlength⟩

theorem not_uneven_of_propsOf {props : Table Json} (h : propsOf v = .ok props) : ¬ Uneven v := by
  rintro ⟨hobj, items, item, parts, hitems, hmem, hparts, hlength⟩
  unfold propsOf at h
  split at h
  · next hempty =>
    -- a value that is empty has no items
    cases v with
    | obj members => exact hobj members rfl
    | arr items' =>
      obtain rfl : items' = items := Option.some.inj hitems
      rw [Json.isEmpty, List.isEmpty_iff] at hempty
      rw [hempty] at hmem
      cases hmem
    | str s =>
      rw [Json.isEmpty, String.isEmpty_iff] at hempty
      rw [hempty, Json.items?, Option.some.injEq] at hitems
      rw [← hitems] at hmem
      cases hmem
    | null | bool b | num n => cases hitems
  split at h
  · exact hobj _ rfl
  rw [hitems] at h
  obtain ⟨pairs, hpairs, -⟩ := map_eq_ok.1 h
  exact hlength (length_of_propsOfPairs hpairs hmem hparts)

/-- That a member of an element that is taken as a text has a number that is too long for one. -/
def Long (v : Json) : Prop := ∃ name ∈ ["id", "type", "name"], ¬ (memberOf v name).isShort

section Members

variable {members : List (String × Json)} {name : String}

theorem memberOf_of_field {m : Json} (h : field members name = .ok m) :
    memberOf (.obj members) name = m := by
  unfold field at h
  split at h
  · next hget =>
    cases h
    rw [memberOf, Json.member?, hget]
    rfl
  · cases h

/-- A chain that starts with a member fails for that member, or further on. -/
theorem of_field_bind_error {f : Json → Except SceneError RawElement} {p : Prop}
    (h : (field members name >>= f) = .error e)
    (hf : ∀ m, memberOf (.obj members) name = m → f m = .error e →
      (∃ fault, e = .invalidElement fault) ∨ p) :
    (∃ fault, e = .invalidElement fault) ∨ p := by
  rcases bind_eq_error.1 h with h | ⟨m, hm, h⟩
  · unfold field at h
    split at h
    · cases h
    · exact .inl ⟨_, (Except.error.inj h).symm⟩
  · exact hf m (memberOf_of_field hm) h

/-- A chain that takes a member as a text fails for that member, or further on. -/
theorem of_taken_bind_error {f : String → Except SceneError RawElement} {p : Prop}
    (hname : name ∈ ["id", "type", "name"])
    (h : (field members name >>= fun m => m.taken >>= f) = .error e)
    (hf : ∀ s, f s = .error e →
      (∃ fault, e = .invalidElement fault) ∨ p ∨ Long (.obj members)) :
    (∃ fault, e = .invalidElement fault) ∨ p ∨ Long (.obj members) := by
  refine of_field_bind_error h fun m hm h => ?_
  rcases bind_eq_error.1 h with h | ⟨s, -, h⟩
  · exact .inr (.inr ⟨name, hname, hm ▸ Json.not_isShort_of_taken h⟩)
  · exact hf s h

/-- A member that is taken as a text is one. -/
theorem text_of_taken {m : Json} {s : String} (hm : field members name = .ok m)
    (h : m.taken = .ok s) : (memberOf (.obj members) name).text = .ok s := by
  rw [memberOf_of_field hm]
  exact mapError_eq_ok.1 h

end Members

/-- An element is refused as one of a document, unless its props are uneven or one of its texts is
too long. -/
theorem of_ofJson_error (h : ofJson v = .error e) :
    (∃ fault, e = .invalidElement fault) ∨ Uneven (memberOf v "props") ∨ Long v := by
  cases v with
  | obj members =>
    refine of_taken_bind_error (by decide) h fun _ h => of_taken_bind_error (by decide) h
      fun _ h => of_taken_bind_error (by decide) h fun _ h => of_field_bind_error h fun _ _ h =>
      of_field_bind_error h fun _ _ h => of_field_bind_error h fun _ _ h =>
      of_field_bind_error h fun _ _ h => ?_
    rcases bind_eq_error.1 h with h | ⟨_, -, h⟩
    · exact (of_propsOf_error h).imp_right .inl
    · cases h
  | null | bool b | num n | str s | arr items => exact .inl ⟨_, (Except.error.inj h).symm⟩

/-- An element that is taken has the id that is given; its props are not uneven, and its texts not
too long. -/
theorem of_ofJson_ok {r : RawElement} (h : ofJson v = .ok r) :
    (memberOf v "id").text = .ok r.id ∧ ¬ Uneven (memberOf v "props") ∧ ¬ Long v := by
  cases v with
  | obj members =>
    obtain ⟨_, hid, h⟩ := bind_eq_ok.1 h
    obtain ⟨id, hid', h⟩ := bind_eq_ok.1 h
    obtain ⟨_, htype, h⟩ := bind_eq_ok.1 h
    obtain ⟨type, htype', h⟩ := bind_eq_ok.1 h
    obtain ⟨_, hname, h⟩ := bind_eq_ok.1 h
    obtain ⟨name, hname', h⟩ := bind_eq_ok.1 h
    obtain ⟨x, -, h⟩ := bind_eq_ok.1 h
    obtain ⟨y, -, h⟩ := bind_eq_ok.1 h
    obtain ⟨w, -, h⟩ := bind_eq_ok.1 h
    obtain ⟨height, -, h⟩ := bind_eq_ok.1 h
    obtain ⟨props, hprops, h⟩ := bind_eq_ok.1 h
    cases h
    have hid := text_of_taken hid hid'
    refine ⟨hid, not_uneven_of_propsOf hprops, ?_⟩
    have hshort : ∀ name ∈ ["id", "type", "name"],
        (memberOf (.obj members) name).isShort = true := by
      simp only [List.forall_mem_cons, List.not_mem_nil, false_implies, implies_true, and_true]
      exact ⟨Json.isShort_of_text hid, Json.isShort_of_text (text_of_taken htype htype'),
        Json.isShort_of_text (text_of_taken hname hname')⟩
    rintro ⟨name, hmem, hlong⟩
    exact hlong (hshort name hmem)
  | null | bool b | num n | str s | arr items => cases h

end RawElement

/-! ## Scenes -/

namespace RawScene

/-- What loading does not foresee. -/
inductive Unforeseen (v : Json) : Prop
  /-- An element has uneven props. -/
  | uneven {entry : String × Json} (hentry : entry ∈ membersOf (memberOf v "elements"))
      (h : RawElement.Uneven (memberOf entry.2 "props"))
  /-- An element has a text that is too long. -/
  | long {entry : String × Json} (hentry : entry ∈ membersOf (memberOf v "elements"))
      (h : RawElement.Long entry.2)
  /-- An item of the order is a text that is too long. -/
  | longItem {m : Json} (hm : v.member? "root_order" = some m) {items : List Json}
      (hitems : m.items? = some items) {item : Json} (hitem : item ∈ items) (h : ¬ item.isShort)
  /-- The order or the selection cannot be walked through. -/
  | notWalkable {name : String} (hname : name = "root_order" ∨ name = "selection") {m : Json}
      (hm : v.member? name = some m) (hitems : m.items? = none)
  /-- A selected value cannot be looked up. -/
  | notKey {m : Json} (hm : v.member? "selection" = some m) {items : List Json}
      (hitems : m.items? = some items) {item : Json} (hitem : item ∈ items)
      (hkey : item.isKey = false)

/-- That a document has every element under its id: of several elements under one key, the last. -/
def IdsAreKeys (v : Json) : Prop :=
  ∀ entry ∈ (Table.ofList (membersOf (memberOf v "elements"))).entries,
    (memberOf entry.2 "id").text = .ok entry.1

section Elements

variable {raw : List (String × Json)}

theorem of_elementsOf_error {e : SceneError} (h : elementsOf raw = .error e) :
    (∃ fault, e = .invalidElement fault) ∨ ∃ entry ∈ raw,
      RawElement.Uneven (memberOf entry.2 "props") ∨ RawElement.Long entry.2 := by
  induction raw with
  | nil => cases h
  | cons entry raw ih =>
    rcases bind_eq_error.1 h with h | ⟨_, -, h⟩
    · exact (RawElement.of_ofJson_error h).imp_right fun hu => ⟨entry, List.mem_cons_self, hu⟩
    rcases bind_eq_error.1 h with h | ⟨_, -, h⟩
    · refine (ih h).imp_right ?_
      rintro ⟨entry', hmem, hu⟩
      exact ⟨entry', List.mem_cons_of_mem _ hmem, hu⟩
    · cases h

/-- Elements that are taken have the ids that are given under the same keys. -/
theorem of_elementsOf_ok {entries : List (String × RawElement)} (h : elementsOf raw = .ok entries) :
    (entries.map fun entry => (entry.1, Except.ok entry.2.id)) =
        (raw.map fun entry => (entry.1, (memberOf entry.2 "id").text)) ∧
      ∀ entry ∈ raw, ¬ RawElement.Uneven (memberOf entry.2 "props") ∧
        ¬ RawElement.Long entry.2 := by
  induction raw generalizing entries with
  | nil =>
    cases h
    exact ⟨rfl, List.forall_mem_nil _⟩
  | cons entry raw ih =>
    obtain ⟨r, hr, h⟩ := bind_eq_ok.1 h
    obtain ⟨rest, hrest, h⟩ := bind_eq_ok.1 h
    cases h
    obtain ⟨hid, heven⟩ := RawElement.of_ofJson_ok hr
    obtain ⟨hids, hevens⟩ := ih hrest
    exact ⟨by rw [List.map_cons, List.map_cons, hid, hids], List.forall_mem_cons.2 ⟨heven, hevens⟩⟩

/-- Elements stand under their ids when those of the document do. -/
theorem ids_eq_keys_iff {entries : List (String × RawElement)} (h : elementsOf raw = .ok entries) :
    (∀ entry ∈ (Table.ofList entries).entries, entry.2.id = entry.1) ↔
      ∀ entry ∈ (Table.ofList raw).entries, (memberOf entry.2 "id").text = .ok entry.1 := by
  have hmap := (Entries.map_ofList (fun e : RawElement => Except.ok e.id) entries).trans
    ((congrArg Entries.ofList (of_elementsOf_ok h).1).trans
      (Entries.map_ofList (fun v => (memberOf v "id").text) raw).symm)
  have hall := congrArg (fun l => ∀ pair ∈ l, pair.2 = .ok pair.1) hmap
  simp only [List.forall_mem_map, Except.ok.injEq] at hall
  exact iff_of_eq hall

end Elements

variable {members : List (String × Json)} {name : String} {e : SceneError}

theorem of_membersOfElements_error (h : membersOfElements members = .error e) :
    e = .elementsNotObject := by
  unfold membersOfElements at h
  split at h <;> cases h
  rfl

theorem membersOf_elements {raw : List (String × Json)} (h : membersOfElements members = .ok raw) :
    membersOf (memberOf (.obj members) "elements") = raw := by
  unfold membersOfElements at h
  rw [memberOf, Json.member?]
  split at h
  · next hget =>
    rw [hget]
    exact Except.ok.inj h
  · next hget =>
    rw [hget]
    exact Except.ok.inj h
  · cases h

theorem of_itemsOf_error (h : itemsOf members name = .error e) :
    ∃ m, Entries.get? members name = some m ∧ m.items? = none := by
  unfold itemsOf at h
  split at h
  · cases h
  · next m hm =>
    split at h
    · cases h
    · next hitems => exact ⟨m, hm, hitems⟩

theorem of_itemsOf_ok {items : List Json} (h : itemsOf members name = .ok items) :
    Entries.get? members name = none ∧ items = [] ∨
      ∃ m, Entries.get? members name = some m ∧ m.items? = some items := by
  unfold itemsOf at h
  split at h
  · next hm => exact .inl ⟨hm, (Except.ok.inj h).symm⟩
  · next m hm =>
    split at h
    · next hitems => exact .inr ⟨m, hm, Except.ok.inj h ▸ hitems⟩
    · cases h

theorem of_selectionOf_error {elements : Table RawElement} {items : List Json}
    (h : selectionOf elements items = .error e) : ∃ item ∈ items, item.isKey = false := by
  induction items with
  | nil => cases h
  | cons item items ih =>
    rw [selectionOf] at h
    split at h
    · rcases bind_eq_error.1 h with h | ⟨_, -, h⟩
      · obtain ⟨item', hmem, hkey⟩ := ih h
        exact ⟨item', List.mem_cons_of_mem _ hmem, hkey⟩
      · split at h <;> cases h
    · next hkey => exact ⟨item, List.mem_cons_self, Bool.eq_false_iff.2 hkey⟩

/-- A selection that is taken names elements. -/
theorem of_selectionOf_ok {elements : Table RawElement} {items : List Json} {ids : List String}
    (h : selectionOf elements items = .ok ids) :
    (∀ item ∈ items, item.isKey = true) ∧ ∀ id ∈ ids, id ∈ elements.keys := by
  induction items generalizing ids with
  | nil =>
    cases h
    exact ⟨List.forall_mem_nil _, List.forall_mem_nil _⟩
  | cons item items ih =>
    rw [selectionOf] at h
    split at h
    · next hkey =>
      obtain ⟨rest, hrest, h⟩ := bind_eq_ok.1 h
      obtain ⟨hkeys, hmem⟩ := ih hrest
      refine ⟨List.forall_mem_cons.2 ⟨hkey, hkeys⟩, ?_⟩
      split at h
      · cases h
        split
        · next hcontains => exact List.forall_mem_cons.2 ⟨Table.contains_iff.1 hcontains, hmem⟩
        · exact hmem
      · cases h
        exact hmem
    · cases h

/-! ## Documents -/

variable {v : Json}

/-- A value is refused as a document, unless it is unforeseen. -/
theorem of_ofDocument_error (h : ofDocument v = .error e) :
    (Command.Failure.scene e).isDocument = true ∨ Unforeseen v := by
  unfold ofDocument at h
  split at h
  · next members =>
    rcases bind_eq_error.1 h with h | ⟨raw, hraw, h⟩
    · exact .inl (of_membersOfElements_error h ▸ rfl)
    have helements := membersOf_elements hraw
    rcases bind_eq_error.1 h with h | ⟨entries, -, h⟩
    · rcases of_elementsOf_error h with ⟨fault, rfl⟩ | ⟨entry, hentry, huneven⟩
      · exact .inl rfl
      · exact .inr (huneven.elim (.uneven (helements ▸ hentry)) (.long (helements ▸ hentry)))
    rcases bind_eq_error.1 h with h | ⟨ordered, hordered, h⟩
    · obtain ⟨m, hm, hitems⟩ := of_itemsOf_error h
      exact .inr (.notWalkable (.inl rfl) hm hitems)
    rcases bind_eq_error.1 h with h | ⟨order, -, h⟩
    · obtain ⟨item, hitem, htaken⟩ := exists_of_mapM_eq_error h
      obtain ⟨-, rfl⟩ | ⟨m, hm, hitems⟩ := of_itemsOf_ok hordered
      · cases hitem
      · exact .inr (.longItem hm hitems hitem (Json.not_isShort_of_taken htaken))
    split at h
    · rcases bind_eq_error.1 h with h | ⟨selected, hselected, h⟩
      · obtain ⟨m, hm, hitems⟩ := of_itemsOf_error h
        exact .inr (.notWalkable (.inr rfl) hm hitems)
      rcases bind_eq_error.1 h with h | ⟨_, -, h⟩
      · obtain ⟨item, hitem, hkey⟩ := of_selectionOf_error h
        obtain ⟨-, rfl⟩ | ⟨m, hm, hitems⟩ := of_itemsOf_ok hselected
        · cases hitem
        · exact .inr (.notKey hm hitems hitem hkey)
      · cases h
    · cases h
      exact .inl rfl
  · cases h
    exact .inl rfl

/-- A list of a document is walked through when it has been taken. -/
theorem items?_of_itemsOf {items : List Json} (h : itemsOf members name = .ok items) {m : Json}
    (hm : (Json.obj members).member? name = some m) : m.items? = some items := by
  obtain ⟨hnone, -⟩ | ⟨m', hm', hitems⟩ := of_itemsOf_ok h
  · cases hm.symm.trans hnone
  · rwa [Option.some.inj (hm.symm.trans hm')]

/-- What holds of a scene that is loaded, and of the value that it is loaded from. -/
theorem of_ofDocument_ok {s : RawScene} (h : ofDocument v = .ok s) :
    ¬ Unforeseen v ∧ s.order.Nodup ∧ s.order.Perm s.elements.keys ∧
      (∀ id ∈ s.selection, id ∈ s.elements.keys) ∧
      ((∀ entry ∈ s.elements.entries, entry.2.id = entry.1) ↔ IdsAreKeys v) := by
  unfold ofDocument at h
  split at h
  · next members =>
    obtain ⟨raw, hraw, h⟩ := bind_eq_ok.1 h
    have helements := membersOf_elements hraw
    obtain ⟨entries, hentries, h⟩ := bind_eq_ok.1 h
    obtain ⟨ordered, hordered, h⟩ := bind_eq_ok.1 h
    obtain ⟨order, htaken, h⟩ := bind_eq_ok.1 h
    split at h
    · next hperm =>
      obtain ⟨selected, hselected, h⟩ := bind_eq_ok.1 h
      obtain ⟨selection, hselection, h⟩ := bind_eq_ok.1 h
      cases h
      have horder := List.isPerm_iff.1 hperm
      obtain ⟨hkeys, hmem⟩ := of_selectionOf_ok hselection
      refine ⟨?_, horder.nodup_iff.2 (Table.ofList entries).nodup, horder, hmem, ?_⟩
      · rintro (⟨hentry, huneven⟩ | ⟨hentry, hlong⟩ | ⟨hm, hitems, hitem, hlong⟩ |
          ⟨rfl | rfl, hm, hitems⟩ | ⟨hm, hitems, hitem, hkey⟩)
        · exact ((of_elementsOf_ok hentries).2 _ (helements ▸ hentry)).1 huneven
        · exact ((of_elementsOf_ok hentries).2 _ (helements ▸ hentry)).2 hlong
        · obtain rfl := Option.some.inj (hitems.symm.trans (items?_of_itemsOf hordered hm))
          obtain ⟨s, hs⟩ := exists_mapM_eq_ok.1 ⟨order, htaken⟩ _ hitem
          exact hlong (Json.isShort_of_text (mapError_eq_ok.1 hs))
        · cases hitems.symm.trans (items?_of_itemsOf hordered hm)
        · cases hitems.symm.trans (items?_of_itemsOf hselected hm)
        · obtain rfl := Option.some.inj (hitems.symm.trans (items?_of_itemsOf hselected hm))
          rw [hkeys _ hitem] at hkey
          cases hkey
      · rw [IdsAreKeys, helements]
        exact ids_eq_keys_iff hentries
    · cases h
  · cases h

/-- Any value is loaded or refused. A scene that is loaded has an order that lists every key once
and a selection that names elements, and every element under its id exactly when the document has.
What is refused is refused as a document, unless it is unforeseen, and what is unforeseen is never
loaded. -/
theorem loaded_or_refused (v : Json) :
    (∃ s, ofDocument v = .ok s ∧ ¬ Unforeseen v ∧ s.order.Nodup ∧ s.order.Perm s.elements.keys ∧
      (∀ id ∈ s.selection, id ∈ s.elements.keys) ∧
      ((∀ entry ∈ s.elements.entries, entry.2.id = entry.1) ↔ IdsAreKeys v)) ∨
    ∃ e, ofDocument v = .error e ∧
      ((Command.Failure.scene e).isDocument = true ∨ Unforeseen v) := by
  cases h : ofDocument v with
  | ok s => exact .inl ⟨s, rfl, of_ofDocument_ok h⟩
  | error e => exact .inr ⟨e, rfl, of_ofDocument_error h⟩

/-- A document of a rectangle under a key that is not its id. -/
def misplaced : Json :=
  .obj [("root_order", .arr [.str "a"]), ("elements", .obj [("a", .obj [("id", .str "b"),
    ("type", .str "rect"), ("name", .str "Panel"), ("x", .ofInt 0), ("y", .ofInt 0),
    ("w", .ofInt 50), ("h", .ofInt 20)])])]

/-- Not every value is either refused as a document or loaded with every element under its id. -/
theorem not_forall_loaded : ¬ ∀ v : Json,
    (∃ e, ofDocument v = .error e ∧ (Command.Failure.scene e).isDocument = true) ∨
      ∃ s, ofDocument v = .ok s ∧ (∀ entry ∈ s.elements.entries, entry.2.id = entry.1) ∧
        s.order.Nodup ∧ s.order.Perm s.elements.keys ∧
        ∀ id ∈ s.selection, id ∈ s.elements.keys := by
  intro hall
  have hload : (ofDocument misplaced).toOption.map
      (fun s => s.elements.entries.map fun entry => (entry.1, entry.2.id)) =
      some [("a", "b")] := by decide +kernel
  obtain ⟨s, hs, hentries⟩ := exists_of_toOption_map hload
  rcases hall misplaced with ⟨e, he, -⟩ | ⟨s', hs', hids, -⟩
  · cases hs.symm.trans he
  · obtain rfl := Except.ok.inj (hs.symm.trans hs')
    have hpairs : ∀ pair ∈ [("a", "b")], pair.2 = pair.1 := by
      rw [← hentries]
      exact List.forall_mem_map.2 hids
    exact absurd (hpairs _ List.mem_cons_self) (by decide)

end RawScene

end SceneScript
