import SceneScript.Proofs.Table
import SceneScript.Proofs.Text.Blank
import SceneScript.Script.Marker

/-!
# Fields behind white space

A field is a key, an equals sign and a value without white space, with some white space in front.
Fields in a row are told apart by that white space alone: a value may hold equals signs and what
looks like another field.

Main statement: fields in a row are read as what they are, in their order
(`Marker.fieldsFrom_spaced`), so that each is found under its key in whatever order they stand
(`Marker.get?_fields_of_perm`).
-/

namespace SceneScript.Marker

/-! ## Keys and values -/

theorem fieldsFrom_key_append {key : List Char} (h : ∀ c ∈ key, Text.isWord c = true)
    (word s : List Char) :
    fieldsFrom (.key word) (key ++ s) = fieldsFrom (.key (key.reverse ++ word)) s := by
  induction key generalizing word with
  | nil => rfl
  | cons c key ih =>
    have hc := h c List.mem_cons_self
    rw [List.cons_append, fieldsFrom, if_pos hc, ih fun d hd => h d (List.mem_cons_of_mem _ hd)]
    simp

theorem fieldsFrom_value_append {value : List Char} (h : ∀ c ∈ value, Text.isBlank c = false)
    (key read s : List Char) :
    fieldsFrom (.value key read) (value ++ s) =
      fieldsFrom (.value key (value.reverse ++ read)) s := by
  induction value generalizing read with
  | nil => rfl
  | cons c value ih =>
    have hc := h c List.mem_cons_self
    rw [List.cons_append, fieldsFrom, if_neg (by simp [hc]),
      ih fun d hd => h d (List.mem_cons_of_mem _ hd)]
    simp

theorem fieldsFrom_equals {key value : List Char} (hne : key ≠ [])
    (hkey : ∀ c ∈ key, Text.isWord c = true) (hvalue : ∀ c ∈ value, Text.isBlank c = false)
    (s : List Char) :
    fieldsFrom (.key []) (key ++ '=' :: (value ++ s)) =
      fieldsFrom (.value key.reverse value.reverse) s := by
  have hequals : Text.isWord '=' = false := by decide
  rw [fieldsFrom_key_append hkey, List.append_nil, fieldsFrom, if_neg (by simp [hequals]),
    if_pos ⟨rfl, by simpa using hne⟩, fieldsFrom_value_append hvalue, List.append_nil]

/-! ## White space -/

theorem fieldsFrom_blank_cons {c : Char} (hc : Text.isBlank c = true) (s : List Char) :
    fieldsFrom (.key []) (c :: s) = fieldsFrom (.key []) s := by
  have hword : Text.isWord c = false :=
    Bool.eq_false_iff.2 fun h => by simp [Text.isBlank_of_isWord h] at hc
  rw [fieldsFrom, if_neg (by simp [hword]), if_neg (by simp)]

/-- White space in front of a key is skipped. -/
theorem fieldsFrom_blank_append {gap : List Char} (h : gap.all Text.isBlank = true)
    (s : List Char) : fieldsFrom (.key []) (gap ++ s) = fieldsFrom (.key []) s := by
  induction gap with
  | nil => rfl
  | cons c gap ih =>
    obtain ⟨hc, hgap⟩ := Bool.and_eq_true_iff.1 h
    rw [List.cons_append, fieldsFrom_blank_cons hc, ih hgap]

/-- A value ends at white space and at the end of the text. -/
theorem fieldsFrom_value_of_blank {s : List Char} (h : ∀ c ∈ s.head?, Text.isBlank c = true)
    (key value : List Char) :
    fieldsFrom (.value key value) s = field key value :: fieldsFrom (.key []) s := by
  cases s with
  | nil => rfl
  | cons c s =>
    have hc := h c rfl
    rw [fieldsFrom_blank_cons hc, fieldsFrom, if_pos hc]

/-! ## Fields in a row -/

/-- A field as it is written: white space, a key, an equals sign and a value. -/
structure SpacedField where
  /-- The white space in front. -/
  gap : List Char
  gap_ne : gap ≠ []
  gap_blank : gap.all Text.isBlank = true
  /-- The key. -/
  key : String
  /-- The value. -/
  value : List Char

namespace SpacedField

/-- The text of a field. -/
def text (f : SpacedField) : List Char := f.gap ++ f.key.toList ++ '=' :: f.value

/-- What a field says. -/
def entry (f : SpacedField) : String × List Char := (f.key, f.value)

end SpacedField

/-- That a field of a key and a value can be told from its neighbours: the key is a word, the value
holds no white space. -/
structure IsField (entry : String × List Char) : Prop where
  key_ne : entry.1.toList ≠ []
  key_word : ∀ c ∈ entry.1.toList, Text.isWord c = true
  value_plain : ∀ c ∈ entry.2, Text.isBlank c = false

variable {fs : List SpacedField}

theorem SpacedField.head_text (f : SpacedField) (s : List Char) :
    ∀ c ∈ (f.text ++ s).head?, Text.isBlank c = true := by
  obtain ⟨d, gap, hgap⟩ := List.exists_cons_of_ne_nil f.gap_ne
  have hd : Text.isBlank d = true := List.all_eq_true.1 f.gap_blank d (hgap ▸ List.mem_cons_self)
  intro c hc
  obtain rfl : d = c := by simpa [text, hgap] using hc
  exact hd

/-- Fields in a row are read as what they are, in their order. -/
theorem fieldsFrom_spaced (h : ∀ f ∈ fs, IsField f.entry) :
    fieldsFrom (.key []) (fs.flatMap SpacedField.text) = fs.map SpacedField.entry := by
  induction fs with
  | nil => rfl
  | cons f fs ih =>
    have hf := h f List.mem_cons_self
    have hhead : ∀ c ∈ (fs.flatMap SpacedField.text).head?, Text.isBlank c = true := by
      cases fs with
      | nil => simp
      | cons g fs => exact g.head_text _
    have hne : f.key.toList ≠ [] := hf.key_ne
    have hplain : ∀ c ∈ f.value, Text.isBlank c = false := hf.value_plain
    have hequals := fieldsFrom_equals hne hf.key_word hplain (fs.flatMap SpacedField.text)
    have hfield : field f.key.toList.reverse f.value.reverse = f.entry := by
      simp [field, SpacedField.entry]
    rw [List.flatMap_cons, SpacedField.text, List.append_assoc, List.append_assoc,
      fieldsFrom_blank_append f.gap_blank, List.cons_append, hequals,
      fieldsFrom_value_of_blank hhead, hfield, ih fun g hg => h g (List.mem_cons_of_mem _ hg),
      List.map_cons]

/-- A field of a row is found under its key, in whatever order the fields stand. -/
theorem get?_fields_of_perm {entries : List (String × List Char)}
    (hperm : (fs.map SpacedField.entry).Perm entries) (hkeys : (Entries.keys entries).Nodup)
    (h : ∀ entry ∈ entries, IsField entry) {key : String} {value : List Char}
    (hmem : (key, value) ∈ entries) :
    (fields (fs.flatMap SpacedField.text)).get? key = some value := by
  have hfields : ∀ f ∈ fs, IsField f.entry := fun f hf =>
    h _ (hperm.mem_iff.1 (List.mem_map_of_mem hf))
  have hnodup : (Entries.keys (fs.map SpacedField.entry)).Nodup :=
    (hperm.map Prod.fst).nodup_iff.2 hkeys
  rw [fields, fieldsFrom_spaced hfields]
  change Entries.get? (Entries.ofList (fs.map SpacedField.entry)) key = some value
  rw [Entries.ofList_of_nodup hnodup]
  exact Entries.get?_of_mem hnodup (hperm.mem_iff.2 hmem)

/-- A word with fields behind it ends in a value or in an equals sign, not in white space. -/
theorem tight_spaced {front : List Char} (hfront : Text.Tight front)
    (h : ∀ f ∈ fs, IsField f.entry) : Text.Tight (front ++ fs.flatMap SpacedField.text) := by
  obtain rfl | ⟨fs, f, rfl⟩ := fs.eq_nil_or_concat
  · simpa using hfront
  · have hvalue : Text.Tight ('=' :: f.value) := by
      refine Text.Tight.of_forall (List.cons_ne_nil _ _) (List.forall_mem_cons.2 ⟨by decide, ?_⟩)
      exact (h f (by simp)).value_plain
    have hends := hfront.append_append hvalue
      (fs.flatMap SpacedField.text ++ (f.gap ++ f.key.toList))
    simpa [SpacedField.text] using hends

end SceneScript.Marker
