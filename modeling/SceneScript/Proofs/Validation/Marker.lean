import SceneScript.Proofs.Scene.Document
import SceneScript.Proofs.Script.Marker

/-!
# Markers of documents that pass

The pattern of an id lets one line break at its end through. The marker of such an element takes two
lines, and even as one text it is read as that of another element, for white space behind an id is
no part of it (`Marker.read_text_of_id`).

Main statement: an element of a document that passes has a marker on one line that says what it
should, exactly when its id has no line break (`Scene.exists_markers`).
-/

namespace SceneScript

open Validation

namespace Marker

/-! ## White space behind an id -/

section Id

variable {e : Element} {t : ElementType} {w h : ℤ} (htype : ElementType.ofName? e.type = some t)

include htype

/-- The white space behind an id counts as the white space in front of the name. -/
theorem read_text_of_id {body back : List Char} (hid : e.id.toList = body ++ back)
    (hne : body ≠ []) (hplain : ∀ c ∈ body, Text.isBlank c = false)
    (hback : back.all Text.isBlank = true) (hname : e.name.toList ≠ [])
    (hw : w.natAbs < Nat.pow 2 2098) (hh : h.natAbs < Nat.pow 2 2098) :
    read (text e w h) = .ok (some (ofElement { e with id := String.ofList body } w h)) := by
  have hgap : (back ++ [' ']).all Text.isBlank = true := by
    rw [List.all_append, hback]
    decide
  let e' : Element := { e with id := String.ofList body }
  let fs : List SpacedField := behindSpace ("id", body) ::
    ⟨back ++ [' '], by simp, hgap, "name", Text.Percent.encode e.name.toList⟩ ::
    ((entries e w h).drop 2).map behindSpace
  have htext : text e w h = [] ++ (word ++ fs.flatMap SpacedField.text) ++ [] := by
    simp [text, hid, fs, entries, behindSpace, SpacedField.text]
  have hentries : fs.map SpacedField.entry = entries e' w h := by
    simp [fs, e', entries, behindSpace, SpacedField.entry]
  have hid' : e'.id.toList = body := String.toList_ofList
  rw [htext]
  exact read_spaced (e := e') (by rwa [hid']) htype (by rwa [hid']) hname hw hh
    (List.Perm.of_eq hentries) rfl rfl

/-- Only the id can break the line of a marker. -/
theorem lineFeed_mem_text_iff : '\n' ∈ text e w h ↔ '\n' ∈ e.id.toList := by
  have hbreak : ∀ {s : List Char}, (∀ c ∈ s, Text.isBlank c = false) → '\n' ∉ s :=
    fun hs hmem => absurd (hs _ hmem) (by decide)
  have hname := hbreak fun _ => Text.Percent.isBlank_of_mem_encode (s := e.name.toList)
  have htype : '\n' ∉ e.type.toList := by
    rw [← ElementType.name_of_ofName? htype]
    exact hbreak (isBlank_of_mem_name t)
  have hdigits (n : ℤ) : '\n' ∉ intDigits n := hbreak fun _ => isBlank_of_mem_intDigits
  have hconst : '\n' ∉ word ++ " id=".toList ∧ '\n' ∉ " name=".toList ∧ '\n' ∉ " type=".toList ∧
      '\n' ∉ " w=".toList ∧ '\n' ∉ " h=".toList := by decide
  obtain ⟨h₁, h₂, h₃, h₄, h₅⟩ := hconst
  rw [List.mem_append] at h₁
  simp only [text, List.mem_append, hname, htype, hdigits, h₁, h₂, h₃, h₄, h₅, or_false, false_or]

end Id

end Marker

/-! ## Elements -/

/-- What is left of an id when it is trimmed, and the line break that is trimmed off. -/
theorem Validation.Solid.exists_trim {s : String} (h : Solid s) :
    ∃ back, s.toList = Text.trim s.toList ++ back ∧ (back = [] ∨ back = ['\n']) ∧
      Text.trim s.toList ≠ [] ∧ ∀ c ∈ Text.trim s.toList, Text.isBlank c = false := by
  obtain ⟨body, hne, hplain, hs⟩ := h
  have htrim : Text.trim body = body := (Text.Tight.of_forall hne hplain).trim
  have htrims : Text.trim s.toList = body := by
    rcases hs with hs | hs
    · rw [hs, htrim]
    · rw [hs, Text.trim_append_blank (by decide), htrim]
  rw [htrims]
  rcases hs with hs | hs
  · exact ⟨[], by rw [hs, List.append_nil], .inl rfl, hne, hplain⟩
  · exact ⟨['\n'], hs, .inr rfl, hne, hplain⟩

theorem Validation.Solid.trimString_eq_iff {s : String} (h : Solid s) :
    Text.trimString s = s ↔ '\n' ∉ s.toList := by
  obtain ⟨back, hs, hback, -, hplain⟩ := h.exists_trim
  have hbreak : '\n' ∉ Text.trim s.toList := fun hmem => absurd (hplain _ hmem) (by decide)
  have htrim : Text.trimString s = s ↔ Text.trim s.toList = s.toList := by
    rw [Text.trimString, ← String.toList_inj, String.toList_ofList]
  rw [htrim]
  constructor
  · exact fun heq => heq ▸ hbreak
  · intro hnot
    rcases hback with rfl | rfl
    · rw [List.append_nil] at hs
      exact hs.symm
    · exact absurd (hs ▸ List.mem_append_right _ (List.mem_singleton_self _)) hnot

/-- The marker of an element of the right shape says its type, its name, its rounded size, and its
id without the line break at its end. -/
theorem Element.Shaped.exists_marker {e : Element} (he : e.Shaped) (hw : e.w.Finite)
    (hh : e.h.Finite) :
    ∃ w h line, e.w.roundHalfUp = .ok w ∧ e.h.roundHalfUp = .ok h ∧ Marker.line e = .ok line ∧
      ('\n' ∉ line ↔ '\n' ∉ e.id.toList) ∧
      Marker.read line =
        .ok (some (Marker.ofElement { e with id := Text.trimString e.id } w h)) := by
  obtain ⟨w, hw, hwlt⟩ := Num.roundHalfUp_of_finite hw
  obtain ⟨h, hh, hhlt⟩ := Num.roundHalfUp_of_finite hh
  obtain ⟨t, ht, -⟩ := he.type
  obtain ⟨back, hid, hback, hne, hplain⟩ := he.id.exists_trim
  have hblank : back.all Text.isBlank = true := by
    rcases hback with rfl | rfl <;> decide
  have hname : e.name.toList ≠ [] := by
    simpa using he.name.ne_empty
  exact ⟨w, h, _, hw, hh, Marker.line_eq hw hh, not_congr (Marker.lineFeed_mem_text_iff ht),
    Marker.read_text_of_id ht hid hne hplain hblank hname hwlt hhlt⟩

/-! ## Documents -/

/-- A document that passes loads, and an element of it with a finite size has a marker. The marker
is on one line and says the id, the name, the type and the rounded size of the element exactly when
the id has no line break; it always says all of this but the line break. -/
theorem Scene.exists_markers {origin : Json.Origin} {document : Json}
    (hpass : (issues origin document).map status = .ok "PASS") :
    ∃ s, ofDocument document = .ok s ∧
      ∀ entry ∈ s.elements.entries, entry.2.w.Finite → entry.2.h.Finite →
        ∃ w h line, entry.2.w.roundHalfUp = .ok w ∧ entry.2.h.roundHalfUp = .ok h ∧
          Marker.line entry.2 = .ok line ∧ ('\n' ∉ line ↔ '\n' ∉ entry.2.id.toList) ∧
          (Marker.read line = .ok (some (Marker.ofElement entry.2 w h)) ↔
            '\n' ∉ entry.2.id.toList) ∧
          Marker.read line = .ok (some
            (Marker.ofElement { entry.2 with id := Text.trimString entry.2.id } w h)) := by
  obtain ⟨s, hs, hvalid, -⟩ := exists_ofDocument (status_eq_pass.1 hpass)
  refine ⟨s, hs, fun entry hentry hw hh => ?_⟩
  have hshaped := (hvalid.elements entry hentry).toShaped
  obtain ⟨w, h, line, hw, hh, hline, hbreak, hread⟩ := hshaped.exists_marker hw hh
  refine ⟨w, h, line, hw, hh, hline, hbreak, ?_, hread⟩
  rw [hread, ← hshaped.id.trimString_eq_iff]
  simp [Marker.ofElement]

/-- A rectangle under an id. -/
def Element.rectangle (id : String) : Element := ⟨id, "rect", "b", 0, 0, 1, 1, Table.empty⟩

namespace Scene

/-- A scene of one rectangle. -/
def oneRectangle (id : String) : Scene := empty.add (.rectangle id)

theorem valid_oneRectangle {id : String} (h : Solid id) : (oneRectangle id).Valid := by
  have helements : (oneRectangle id).elements.entries = [(id, .rectangle id)] := rfl
  have hname : Visible "b" := ⟨'b', by decide, by decide⟩
  refine ⟨⟨?_, .refl _, List.nodup_nil, fun id hid => absurd hid List.not_mem_nil⟩, ?_⟩
  · simp [helements, Element.rectangle]
  · rw [helements, List.forall_mem_singleton]
    exact ⟨⟨h, ⟨.rect, rfl, rfl⟩, hname, rfl, rfl, fun prop hprop => absurd hprop List.not_mem_nil⟩,
      fun prop hprop => absurd hprop List.not_mem_nil⟩

theorem pass_oneRectangle {id : String} (h : Solid id) (origin : Json.Origin) :
    (issues origin (oneRectangle id).toDocument).map status = .ok "PASS" :=
  status_eq_pass.2 (issues_toDocument.2 (valid_oneRectangle h))

theorem finite_one : (1 : Num).Finite :=
  Num.IsWholeWithin.finite (by decide : (1 : Num).IsWholeWithin (Nat.pow 2 50))

/-- An id without a line break is said by the marker. -/
theorem exists_markers_oneRectangle :
    (issues .text (oneRectangle "a").toDocument).map status = .ok "PASS" ∧
      ∃ line, Marker.line (.rectangle "a") = .ok line ∧ '\n' ∉ line ∧
        Marker.read line = .ok (some ⟨some "a", some "b", some "rect", some 1, some 1⟩) := by
  have hsolid : Solid "a" := ⟨['a'], by decide, by decide, .inl rfl⟩
  have hpass := pass_oneRectangle hsolid .text
  obtain ⟨s, hs, hmarkers⟩ := exists_markers hpass
  have hload : ofDocument (oneRectangle "a").toDocument = .ok (oneRectangle "a") := rfl
  obtain rfl : oneRectangle "a" = s := Except.ok.inj (hload.symm.trans hs)
  have hentry : ("a", Element.rectangle "a") ∈ (oneRectangle "a").elements.entries :=
    List.mem_singleton_self _
  obtain ⟨w, h, line, hw, hh, hline, hbreak, hread, -⟩ :=
    hmarkers _ hentry finite_one finite_one
  have hone : (1 : Num).roundHalfUp = .ok 1 := Num.roundHalfUp_of_whole rfl (by decide)
  obtain rfl : w = 1 := Except.ok.inj (hw.symm.trans hone)
  obtain rfl : h = 1 := Except.ok.inj (hh.symm.trans hone)
  have hid : '\n' ∉ (Element.rectangle "a").id.toList := by decide
  exact ⟨hpass, line, hline, hbreak.2 hid, hread.2 hid⟩

/-- Not all documents that pass have such markers: an id may end in a line break. -/
theorem not_forall_markers : ¬ ∀ (origin : Json.Origin) (document : Json),
    (issues origin document).map status = .ok "PASS" →
    ∃ s, ofDocument document = .ok s ∧
      ∀ entry ∈ s.elements.entries, entry.2.w.Finite → entry.2.h.Finite →
        ∃ w h line, entry.2.w.roundHalfUp = .ok w ∧ entry.2.h.roundHalfUp = .ok h ∧
          Marker.line entry.2 = .ok line ∧ '\n' ∉ line ∧
          Marker.read line = .ok (some (Marker.ofElement entry.2 w h)) := by
  intro hall
  have hsolid : Solid "a\n" := ⟨['a'], by decide, by decide, .inr rfl⟩
  obtain ⟨s, hs, hmarkers⟩ := hall .text (oneRectangle "a\n").toDocument
    (pass_oneRectangle hsolid .text)
  have hload : ofDocument (oneRectangle "a\n").toDocument = .ok (oneRectangle "a\n") := rfl
  obtain rfl : oneRectangle "a\n" = s := Except.ok.inj (hload.symm.trans hs)
  have hentry : ("a\n", Element.rectangle "a\n") ∈ (oneRectangle "a\n").elements.entries :=
    List.mem_singleton_self _
  obtain ⟨-, -, line, -, -, hline, hbreak, -⟩ := hmarkers _ hentry finite_one finite_one
  have hshaped := ((valid_oneRectangle hsolid).elements _ hentry).toShaped
  obtain ⟨-, -, line', -, -, hline', hiff, -⟩ := hshaped.exists_marker finite_one finite_one
  obtain rfl : line = line' := Except.ok.inj (hline.symm.trans hline')
  exact hiff.1 hbreak (by decide)

end Scene

end SceneScript
