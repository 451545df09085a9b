import SceneScript.Proofs.Number.Decimal
import SceneScript.Proofs.Scene.Readable
import SceneScript.Proofs.Script.Fields
import SceneScript.Proofs.Text.Percent

/-!
# Markers read back

A name is encoded without white space, a size is written in digits, and an id and a type may hold
anything but white space, so that the five fields of a marker are told apart (`isField_entries`).

Main statement: a marker says the id, the name, the type and the rounded size of the element that
it was written for, whatever the order of its fields and the white space between them
(`Marker.exists_read_of_perm`). The marker as it is written is one of these
(`Marker.read_text`).
-/

namespace SceneScript.Marker

/-! ## Sizes -/

theorem isBlank_of_mem_intDigits {n : ℤ} {c : Char} (h : c ∈ intDigits n) :
    Text.isBlank c = false := by
  rcases mem_intDigits h with rfl | h
  · decide
  · exact isBlank_of_isDigit h

theorem intDigits_ne_nil (n : ℤ) : intDigits n ≠ [] := by
  rw [intDigits_eq]
  simp [decimalDigits_ne_nil]

theorem tight_intDigits (n : ℤ) : Text.Tight (intDigits n) :=
  Text.Tight.of_forall (intDigits_ne_nil n) fun _ => isBlank_of_mem_intDigits

theorem signedDigits?_intDigits (n : ℤ) :
    signedDigits? (intDigits n) = some (decide (n < 0), decimalDigits n.natAbs) := by
  have hdigits : (decimalDigits n.natAbs).all Text.isDigit = true :=
    List.all_eq_true.2 fun c hc => Text.isDigit_of_isDigit (isDigit_of_mem_decimalDigits hc)
  have hne := decimalDigits_ne_nil n.natAbs
  rw [intDigits_eq]
  by_cases hn : n < 0
  · simp [signedDigits?, hn, hne, hdigits]
  · obtain ⟨c, rest, hcons⟩ := List.exists_cons_of_ne_nil hne
    have hc : c ≠ '-' := by
      rintro rfl
      have : '-' ∈ decimalDigits n.natAbs := by simp [hcons]
      exact absurd (isDigit_of_mem_decimalDigits this) (by decide)
    rw [hcons] at hdigits
    simp only [hn, if_false, List.nil_append, hcons, signedDigits?]
    split
    · next t ht => simp_all
    · simp [hdigits]

/-- A size that is not too long is read. -/
theorem size?_intDigits {fields : Table (List Char)} {key : String} {n : ℤ}
    (h : fields.get? key = some (intDigits n)) (hn : n.natAbs < Nat.pow 2 2098) :
    size? fields key = .ok (some n) := by
  have hlen := length_decimalDigits_le_digitLimit hn
  rw [size?, h, Option.getD_some, signedDigits?_intDigits]
  dsimp only
  rw [if_neg (by omega), natOfDigits_decimalDigits]
  by_cases hneg : n < 0
  · simp only [hneg, decide_true, if_true]
    congr 2
    omega
  · simp only [hneg, decide_false, Bool.false_eq_true, if_false]
    congr 2
    omega

/-! ## Markers -/

theorem filled?_of_get? {table : Table (List Char)} {key : String} {value : List Char}
    (h : table.get? key = some value) (hne : value ≠ []) : filled? table key = some value := by
  rw [filled?, h]
  split
  · next heq => exact absurd (Option.some.inj heq) hne
  · rfl

theorem tight_word : Text.Tight word := by
  refine Text.Tight.of_forall (by decide) ?_
  decide

/-- The text of the marker of an element with a rounded size. -/
def text (e : Element) (w h : ℤ) : List Char :=
  word ++ " id=".toList ++ e.id.toList ++ " name=".toList
    ++ Text.Percent.encode e.name.toList ++ " type=".toList ++ e.type.toList
    ++ " w=".toList ++ intDigits w ++ " h=".toList ++ intDigits h

/-- What the marker of an element with a rounded size says. -/
def ofElement (e : Element) (w h : ℤ) : Marker :=
  ⟨some e.id, some e.name, some e.type, some w, some h⟩

theorem line_eq {e : Element} {w h : ℤ} (hw : e.w.roundHalfUp = .ok w)
    (hh : e.h.roundHalfUp = .ok h) : line e = .ok (text e w h) := by
  rw [line, hw, hh]
  rfl

/-- The fields of a marker, each behind a blank. -/
theorem text_eq (e : Element) (w h : ℤ) : text e w h = word ++ ' ' ::
    ("id".toList ++ '=' :: (e.id.toList ++ ' ' ::
    ("name".toList ++ '=' :: (Text.Percent.encode e.name.toList ++ ' ' ::
    ("type".toList ++ '=' :: (e.type.toList ++ ' ' ::
    ("w".toList ++ '=' :: (intDigits w ++ ' ' ::
    ("h".toList ++ '=' :: intDigits h))))))))) := by
  simp [text]

theorem isBlank_of_mem_name (t : ElementType) : ∀ c ∈ t.name.toList, Text.isBlank c = false := by
  cases t <;> decide

theorem tight_text (e : Element) (w h : ℤ) : Text.Tight (text e w h) := by
  rw [text_eq]
  have hsplit := tight_word.append_append (tight_intDigits h) (' ' ::
    ("id".toList ++ '=' :: (e.id.toList ++ ' ' ::
    ("name".toList ++ '=' :: (Text.Percent.encode e.name.toList ++ ' ' ::
    ("type".toList ++ '=' :: (e.type.toList ++ ' ' ::
    ("w".toList ++ '=' :: (intDigits w ++ ' ' :: ("h".toList ++ ['=']))))))))))
  simpa using hsplit

/-- The fields of the marker of an element with a rounded size. -/
def entries (e : Element) (w h : ℤ) : List (String × List Char) :=
  [("id", e.id.toList), ("name", Text.Percent.encode e.name.toList), ("type", e.type.toList),
    ("w", intDigits w), ("h", intDigits h)]

/-- A field behind one space. -/
def behindSpace (entry : String × List Char) : SpacedField :=
  ⟨[' '], by simp, by decide, entry.1, entry.2⟩

theorem map_entry_behindSpace (entries : List (String × List Char)) :
    (entries.map behindSpace).map SpacedField.entry = entries := by
  rw [List.map_map]
  exact List.map_id entries

theorem text_eq_spaced (e : Element) (w h : ℤ) :
    text e w h = word ++ ((entries e w h).map behindSpace).flatMap SpacedField.text := by
  simp [text, entries, behindSpace, SpacedField.text]

section Entries

variable {e : Element} {t : ElementType} {w h : ℤ}
  (hplain : ∀ c ∈ e.id.toList, Text.isBlank c = false)
  (htype : ElementType.ofName? e.type = some t)

include hplain htype

theorem isField_entries : ∀ entry ∈ entries e w h, IsField entry := by
  have ht : ∀ c ∈ e.type.toList, Text.isBlank c = false := by
    rw [← ElementType.name_of_ofName? htype]
    exact isBlank_of_mem_name t
  have hkey : ∀ key ∈ ["id", "name", "type", "w", "h"],
      key.toList ≠ [] ∧ ∀ c ∈ key.toList, Text.isWord c = true := by decide
  have hvalue : ∀ value ∈ (entries e w h).map Prod.snd, ∀ c ∈ value, Text.isBlank c = false := by
    simp only [entries, List.map_cons, List.map_nil, List.forall_mem_cons, List.not_mem_nil,
      false_implies, implies_true, and_true]
    exact ⟨hplain, fun _ => Text.Percent.isBlank_of_mem_encode, ht,
      fun _ => isBlank_of_mem_intDigits, fun _ => isBlank_of_mem_intDigits⟩
  intro entry hentry
  obtain ⟨hne, hword⟩ := hkey entry.1 (List.mem_map_of_mem hentry)
  exact ⟨hne, hword, hvalue entry.2 (List.mem_map_of_mem hentry)⟩

variable (hid : e.id.toList ≠ []) (hname : e.name.toList ≠ [])
  (hw : w.natAbs < Nat.pow 2 2098) (hh : h.natAbs < Nat.pow 2 2098)

include hid hname hw hh

omit hplain in
/-- Fields that are all found under their keys make the marker. -/
theorem ofFields_of_get? {table : Table (List Char)}
    (hget : ∀ entry ∈ entries e w h, table.get? entry.1 = some entry.2) :
    ofFields table = .ok (some (ofElement e w h)) := by
  simp only [entries, List.forall_mem_cons, List.not_mem_nil, false_implies, implies_true,
    and_true] at hget
  obtain ⟨hgetId, hgetName, hgetType, hgetW, hgetH⟩ := hget
  have hfilledId := filled?_of_get? hgetId hid
  have hfilledName := filled?_of_get? hgetName (Text.Percent.encode_ne_nil hname)
  have hsizeW := size?_intDigits hgetW hw
  have hsizeH := size?_intDigits hgetH hh
  rw [ofFields, hfilledId, hfilledName, hgetType]
  simp [hsizeW, hsizeH, htype, Text.Percent.decode_encode, ElementType.name_of_ofName? htype,
    ofElement]
  rfl

/-- The fields of a marker are read in whatever order they stand. -/
theorem read_spaced {fs : List SpacedField}
    (hperm : (fs.map SpacedField.entry).Perm (entries e w h))
    {front back : List Char} (hfront : front.all Text.isBlank = true)
    (hback : back.all Text.isBlank = true) :
    read (front ++ (word ++ fs.flatMap SpacedField.text) ++ back) =
      .ok (some (ofElement e w h)) := by
  have hfields := isField_entries (w := w) (h := h) hplain htype
  have htight : Text.Tight (word ++ fs.flatMap SpacedField.text) :=
    tight_spaced tight_word fun f hf => hfields _ (hperm.mem_iff.1 (List.mem_map_of_mem hf))
  have htrim : Text.trim (front ++ (word ++ fs.flatMap SpacedField.text) ++ back) =
      word ++ fs.flatMap SpacedField.text := by
    rw [Text.trim_append_blank hback, Text.trim_blank_append hfront, htight.trim]
  have hkeys : (Entries.keys (entries e w h)).Nodup :=
    (by decide : ["id", "name", "type", "w", "h"].Nodup)
  rw [read, htrim, Text.afterWord?_append]
  exact ofFields_of_get? htype hid hname hw hh fun entry hentry =>
    get?_fields_of_perm hperm hkeys hfields hentry

end Entries

section Readable

variable {e : Element} (he : e.Readable) (w h : ℤ)

include he

theorem isBlank_of_mem_type : ∀ c ∈ e.type.toList, Text.isBlank c = false := by
  obtain ⟨t, ht, -⟩ := he.type
  rw [← ElementType.name_of_ofName? ht]
  exact isBlank_of_mem_name t

theorem flat_text : Text.Flat (text e w h) := by
  have hplain : ∀ {s : List Char}, (∀ c ∈ s, Text.isBlank c = false) → Text.Flat s :=
    Text.flat_of_not_isBlank
  have hconst : Text.Flat (word ++ " id=".toList) ∧ Text.Flat " name=".toList ∧
      Text.Flat " type=".toList ∧ Text.Flat " w=".toList ∧ Text.Flat " h=".toList := by
    unfold Text.Flat
    decide
  obtain ⟨h₁, h₂, h₃, h₄, h₅⟩ := hconst
  simp only [text, Text.flat_append]
  simp only [Text.flat_append] at h₁
  exact ⟨⟨⟨⟨⟨⟨⟨⟨⟨h₁, hplain he.id_plain⟩, h₂⟩,
    hplain fun _ => Text.Percent.isBlank_of_mem_encode⟩, h₃⟩, hplain (isBlank_of_mem_type he)⟩,
    h₄⟩, hplain fun _ => isBlank_of_mem_intDigits⟩, h₅⟩, hplain fun _ => isBlank_of_mem_intDigits⟩

/-- The marker of a readable element says its id, its name, its type and its rounded size. -/
theorem read_text (hw : w.natAbs < Nat.pow 2 2098) (hh : h.natAbs < Nat.pow 2 2098)
    {front back : List Char} (hfront : front.all Text.isBlank = true)
    (hback : back.all Text.isBlank = true) :
    read (front ++ text e w h ++ back) = .ok (some (ofElement e w h)) := by
  obtain ⟨t, ht, -⟩ := he.type
  rw [text_eq_spaced]
  exact read_spaced he.id_plain ht he.id_ne he.name_ne hw hh
    (List.Perm.of_eq (map_entry_behindSpace (entries e w h))) hfront hback

end Readable

/-- The marker of an element is read in whatever order its fields stand, whatever white space is
between them and around it. -/
theorem exists_read_of_perm {e : Element} {t : ElementType} (hid : e.id ≠ "")
    (hplain : ∀ c ∈ e.id.toList, Text.isBlank c = false) (hname : e.name ≠ "")
    (htype : e.type = t.name) (hw : e.w.Finite) (hh : e.h.Finite) :
    ∃ w h, e.w.roundHalfUp = .ok w ∧ e.h.roundHalfUp = .ok h ∧
      line e = .ok (word ++ ((entries e w h).map behindSpace).flatMap SpacedField.text) ∧
      ∀ (fs : List SpacedField) (front back : List Char),
        (fs.map SpacedField.entry).Perm (entries e w h) →
        front.all Text.isBlank = true → back.all Text.isBlank = true →
        read (front ++ (word ++ fs.flatMap SpacedField.text) ++ back) =
          .ok (some (ofElement e w h)) := by
  obtain ⟨w, hw, hwlt⟩ := Num.roundHalfUp_of_finite hw
  obtain ⟨h, hh, hhlt⟩ := Num.roundHalfUp_of_finite hh
  refine ⟨w, h, hw, hh, (line_eq hw hh).trans (by rw [text_eq_spaced]), ?_⟩
  intro fs front back hperm hfront hback
  exact read_spaced hplain (htype ▸ ElementType.ofName?_name t) (by simpa using hid)
    (by simpa using hname) hwlt hhlt hperm hfront hback

/-- A group with an id that looks like a field and a name that has to be encoded. -/
def gridGroup : Element :=
  ⟨"name=b", "group", "Übung 50%", .int 0, .int 0, .int 12, .int (-7), Table.empty⟩

/-- Its fields in another order. -/
def gridFields : List SpacedField :=
  [⟨"  ".toList, by decide, by decide, "h", "-7".toList⟩,
    ⟨"\t".toList, by decide, by decide, "id", "name=b".toList⟩,
    ⟨" ".toList, by decide, by decide, "w", "12".toList⟩,
    ⟨" ".toList, by decide, by decide, "name", "%C3%9Cbung%2050%25".toList⟩,
    ⟨"  ".toList, by decide, by decide, "type", "group".toList⟩]

theorem exists_read_of_perm_gridGroup :
    read "\t--TDGUI  h=-7\tid=name=b w=12 name=%C3%9Cbung%2050%25  type=group ".toList =
      .ok (some ⟨some "name=b", some "Übung 50%", some "group", some 12, some (-7)⟩) := by
  have hround (n : ℤ) (hn : n.natAbs ≤ Nat.pow 2 50) : (Num.int n).roundHalfUp = .ok n :=
    Num.roundHalfUp_of_whole rfl hn
  obtain ⟨w, h, hw, hh, -, hread⟩ := exists_read_of_perm (e := gridGroup) (t := .group) (by decide)
    (by decide) (by decide) (by decide) (by decide +kernel) (by decide +kernel)
  obtain rfl : w = 12 := Except.ok.inj (hw.symm.trans (hround 12 (by decide)))
  obtain rfl : h = -7 := Except.ok.inj (hh.symm.trans (hround (-7) (by decide)))
  have hline := hread gridFields "\t".toList " ".toList (by decide +kernel) (by decide) (by decide)
  rwa [show "\t".toList ++ (word ++ gridFields.flatMap SpacedField.text) ++ " ".toList =
    "\t--TDGUI  h=-7\tid=name=b w=12 name=%C3%9Cbung%2050%25  type=group ".toList by
      decide +kernel] at hline

end SceneScript.Marker
