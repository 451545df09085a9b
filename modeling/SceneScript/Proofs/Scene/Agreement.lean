import SceneScript.Command.Validator
import SceneScript.Proofs.Json.Same
import SceneScript.Proofs.Scene.Document
import SceneScript.Proofs.Validation.Total

/-!
# Validation and loading agree

Loading makes something of every part of a document on its own, leniently; a document that passes
leaves nothing to be lenient about, so the scene that it gives writes the document again.

Main statement: validation returns for every value and counts what it finds, and a document that
passes loads as a consistent scene whose document is the same one, but for the order of members and
a selection that may be left out (`Scene.agrees_ofDocument`). No object of the document may have a
name twice, as is so for all that is read from a text (`Json.hasDistinctNames_of_parse`).
-/

namespace SceneScript

open Validation

/-- A document with a selection: an empty one if it has none. -/
def Json.withSelection : Json → Json
  | .obj members =>
    match Entries.get? members "selection" with
    | some _ => .obj members
    | none => .obj (Entries.insert members "selection" (.arr []))
  | v => v

/-! ## Elements -/

namespace Element

/-- An element writes the object that it is read from. -/
theorem ReadFrom.same {members : List (String × Json)} {e : Element} (h : e.ReadFrom members)
    (hclosed : ∀ m ∈ members, m.1 ∈ elementFields.map Prod.fst)
    (hnames : (Json.obj members).hasDistinctNames = true) : (Json.obj members).Same e.toJson := by
  obtain ⟨hnodup, hdistinct⟩ := Json.hasDistinctNames_obj.1 hnames
  obtain ⟨props, hprops, hp⟩ := h.props
  have hentries : e.props.entries = props := by
    have hmem := hdistinct _ (Entries.mem_of_get? hprops)
    rw [hp]
    exact Entries.ofList_of_nodup (Json.hasDistinctNames_obj.1 hmem).1
  refine .members (Entries.perm_of_get? hnodup (by simp [Entries.keys]) ?_ ?_)
  · simp [h.id, h.type, h.name, h.x, h.y, h.w, h.h, hprops, hentries]
  · simpa [elementFields, Entries.keys] using hclosed

end Element

/-! ## Scenes -/

namespace Scene

/-- The elements of a document are those that a scene of them writes. -/
theorem same_elements {raw : List (String × Json)} {entries : List (String × Element)}
    (hall : List.Forall₂ EntryReads raw entries)
    (hshaped : ∀ entry ∈ raw, elementCheck entry.2 = [])
    (hnames : ∀ entry ∈ raw, entry.2.hasDistinctNames = true) :
    (Json.obj raw).Same (.obj (entries.map fun e => (e.1, e.2.toJson))) := by
  refine .obj_of_forall₂ (List.forall₂_map_right_iff.2 ?_)
  refine List.Forall₂.imp ?_ (forall₂_mem_left hall)
  rintro ⟨key, v⟩ entry ⟨hentry, rfl, members, rfl, hread, -⟩
  obtain ⟨_, heq, hclosed, -⟩ := elementCheck_eq_nil.1 (hshaped _ hentry)
  cases heq
  exact ⟨rfl, hread.same hclosed (hnames _ hentry)⟩

/-- The order and the selection of a scene are the lists of ids in its document. -/
theorem lists_of_ofDocument {members : List (String × Json)} {s : Scene}
    (h : ofDocument (.obj members) = .ok s) :
    (∃ items, RawScene.itemsOf members "root_order" = .ok items ∧
        items.mapM Json.taken = .ok s.order) ∧
      ∃ items elements, RawScene.itemsOf members "selection" = .ok items ∧
        Table.keys elements = s.elements.keys ∧
        RawScene.selectionOf elements items = .ok s.selection := by
  obtain ⟨loaded, hloaded, h⟩ := bind_eq_ok.1 h
  obtain ⟨numbered, hnumbered, h⟩ := bind_eq_ok.1 h
  cases h
  have hkeys : loaded.elements.keys = (Table.ofList numbered).keys := by
    have heq : Entries.keys numbered = loaded.elements.keys := RawScene.keys_of_numbered hnumbered
    have htable : (Table.ofList numbered).entries = numbered :=
      Entries.ofList_of_nodup (heq ▸ loaded.elements.nodup)
    exact heq.symm.trans (congrArg Entries.keys htable.symm)
  obtain ⟨_, -, hloaded⟩ := bind_eq_ok.1 hloaded
  obtain ⟨entries, -, hloaded⟩ := bind_eq_ok.1 hloaded
  obtain ⟨ordered, hordered, hloaded⟩ := bind_eq_ok.1 hloaded
  obtain ⟨order, htaken, hloaded⟩ := bind_eq_ok.1 hloaded
  split at hloaded
  · obtain ⟨selected, hselected, hloaded⟩ := bind_eq_ok.1 hloaded
    obtain ⟨selection, hselection, hloaded⟩ := bind_eq_ok.1 hloaded
    cases hloaded
    exact ⟨⟨ordered, hordered, htaken⟩, selected, _, hselected, hkeys, hselection⟩
  · cases hloaded

/-- The members of a document with a selection are those of the document and a list of ids. -/
theorem exists_withSelection {members : List (String × Json)} {selection : List String}
    (h : RawScene.itemsOf members "selection" = .ok (selection.map .str))
    (harr : ∀ v, Entries.get? members "selection" = some v → ∃ items, v = .arr items)
    (hnodup : (Entries.keys members).Nodup) :
    ∃ members', (Json.obj members).withSelection = .obj members' ∧ (Entries.keys members').Nodup ∧
      Entries.get? members' "selection" = some (.arr (selection.map .str)) ∧
      (∀ name ≠ "selection", Entries.get? members' name = Entries.get? members name) ∧
      ∀ m ∈ members', m ∈ members ∨ m.1 = "selection" := by
  rw [RawScene.itemsOf] at h
  rw [Json.withSelection]
  cases hmember : Entries.get? members "selection" with
  | some v =>
    obtain ⟨items, rfl⟩ := harr v hmember
    rw [hmember] at h
    obtain rfl : items = selection.map .str := Except.ok.inj h
    exact ⟨members, rfl, hnodup, hmember, fun _ _ => rfl, fun m hm => .inl hm⟩
  | none =>
    rw [hmember] at h
    rw [← Except.ok.inj h]
    exact ⟨_, rfl, Entries.nodup_insert hnodup _ _, Entries.get?_insert_self _ _ _,
      fun name hname => Entries.get?_insert_of_ne _ _ hname,
      fun m hm => (Entries.mem_of_mem_insert hm).imp_right (congrArg Prod.fst)⟩

/-- A document that passes is loaded, and the scene writes it again. -/
theorem exists_same_toDocument {origin : Json.Origin} {document : Json}
    (hnames : document.hasDistinctNames = true) (h : issues origin document = .ok []) :
    ∃ s, ofDocument document = .ok s ∧ s.Consistent ∧ s.order.Nodup ∧
      s.toDocument.Same document.withSelection := by
  obtain ⟨s, hs, hvalid, hall⟩ := exists_ofDocument h
  refine ⟨s, hs, hvalid.toConsistent, hvalid.order.nodup_iff.2 s.elements.nodup, ?_⟩
  obtain ⟨hshape, hfit⟩ := issues_eq_nil.1 h
  obtain ⟨members, rfl, hclosed, hversion, ⟨order, horder, -⟩, ⟨raw, hraw, hshaped⟩, hselection⟩ :=
    documentCheck_eq_nil.1 hshape
  obtain ⟨hnodup, hdistinct⟩ := Json.hasDistinctNames_obj.1 hnames
  obtain ⟨selection, hselected, hids, -⟩ := exists_selection hselection
  obtain ⟨members', hmembers', hnodup', hselection', hother, hextra⟩ :=
    exists_withSelection hselected (fun v hv => (hselection v hv).imp' _ fun _ h => h.1) hnodup
  have hmembers : membersOf (memberOf (.obj members) "elements") = raw := by
    simp [membersOf, memberOf, Json.member?, hraw]
  rw [hmembers] at hall
  -- the lists of ids are kept as they are
  obtain ⟨⟨ordered, hordered, htaken⟩, items, elements, hitems, hkeys', hkept⟩ :=
    lists_of_ofDocument hs
  have hsorder : s.order = order := by
    obtain rfl : order.map .str = ordered := by
      simpa [RawScene.itemsOf, horder, Json.items?] using hordered
    rw [List.mapM_map, RawScene.mapM_taken_comp_str] at htaken
    exact (Except.ok.inj htaken).symm
  have hsselection : s.selection = selection := by
    obtain rfl : items = selection.map .str := Except.ok.inj (hitems.symm.trans hselected)
    have hkeys : raw.map Prod.fst = s.elements.keys := map_eq_of_forall₂ (fun _ _ h => h.1) hall
    have hmem := (invariantFindings_eq_nil.1 hfit).2.2
    rw [hmembers, hids, hkeys, ← hkeys'] at hmem
    rw [RawScene.selectionOf_map_str hmem] at hkept
    exact (Except.ok.inj hkept).symm
  -- members that are those of the document stand in some order; only the elements are written anew
  have hperm : members'.Perm [("schema_version", .str schemaVersion),
      ("root_order", .arr (order.map .str)), ("elements", .obj raw),
      ("selection", .arr (selection.map .str))] := by
    refine Entries.perm_of_get? hnodup' (by simp [Entries.keys]) ?_ fun m hm => ?_
    · simp [hother, hversion, horder, hraw, hselection', schemaVersion]
    · rcases hextra m hm with hm | hm
      · simpa [documentFields, Entries.keys] using hclosed m hm
      · simp [hm, Entries.keys]
  have helements : (Json.obj raw).Same (.obj (s.elements.entries.map fun e => (e.1, e.2.toJson))) :=
    same_elements hall hshaped
      (Json.hasDistinctNames_obj.1 (hdistinct _ (Entries.mem_of_get? hraw))).2
  rw [hmembers', toDocument, hsorder, hsselection]
  exact .trans (.member [_, _] [_] "elements" helements.symm) (.members hperm.symm)

end Scene

theorem Command.SceneCheck.report_counts (c : SceneCheck) (time : String) :
    (c.report time).member? "errors" = some (.arr (c.issues.map Issue.toJson)) ∧
      (c.report time).member? "error_count" = some (.ofInt c.issues.length) ∧
      ((c.report time).member? "overall_status" = some (.str "PASS") ↔ c.issues = []) := by
  simp [report, Json.member?, Entries.get?, ← status_eq_pass_iff]

namespace Scene

/-- Validation returns for every value of which no finding shows a number that is too long, and so
for every value without such numbers; nothing else makes it fail. Its report counts the errors and
says that the document passes exactly when there are none. A document that passes loads, as a
consistent scene, and the document of this scene is the same one. -/
theorem agrees_ofDocument (origin : Json.Origin) (document : Json)
    (scenePath schemaPath time : String) :
    issues? origin document = some (issues origin document) ∧
      (∀ e, issues origin document = .error e ↔
        e = .tooLong ∧ ∃ f ∈ findings origin document, f.message = .error .tooLong) ∧
      (document.isShort = true → ∃ found, issues origin document = .ok found) ∧
      (∀ found, issues origin document = .ok found →
        let report := (Command.SceneCheck.mk scenePath schemaPath found).report time
        report.member? "errors" = some (.arr (found.map Issue.toJson)) ∧
          report.member? "error_count" = some (.ofInt found.length) ∧
          (report.member? "overall_status" = some (.str "PASS") ↔ found = [])) ∧
      (document.hasDistinctNames = true → (issues origin document).map status = .ok "PASS" →
        ∃ s, ofDocument document = .ok s ∧ s.Consistent ∧ s.order.Nodup ∧
          s.toDocument.Same document.withSelection) :=
  ⟨issues?_eq_some origin document, fun _ => issues_eq_error_iff, exists_issues origin,
    fun _ _ => Command.SceneCheck.report_counts _ time,
    fun hnames hpass => exists_same_toDocument hnames (status_eq_pass.1 hpass)⟩

/-- A document of a panel, with its members in no usual order and without a selection. -/
def panelDocument : Json :=
  .obj [("elements", .obj [("a", .obj [("type", .str "rectOutline"), ("id", .str "a"),
      ("props", .obj [("thickness", .ofInt 3)]), ("name", .str "Panel"), ("h", .ofInt 40),
      ("w", .num (tenths 5)), ("y", .ofInt 0), ("x", .ofInt (-1))])]),
    ("schema_version", .str "1.0.0"), ("root_order", .arr [.str "a"])]

theorem agrees_panelDocument :
    panelDocument.hasDistinctNames = true ∧ panelDocument.isShort = true ∧
      (issues .text panelDocument).map status = .ok "PASS" ∧
      ∃ s, ofDocument panelDocument = .ok s ∧ s.Consistent ∧ s.order.Nodup ∧
        s.toDocument.Same panelDocument.withSelection := by
  have hpass : (issues .text panelDocument).map status = .ok "PASS" := by decide +kernel
  obtain ⟨-, -, -, -, hload⟩ := agrees_ofDocument .text panelDocument "" "" ""
  exact ⟨rfl, by decide +kernel, hpass, hload rfl hpass⟩

/-- A scene of a circle of a size. -/
def oneCircle (size : ℤ) : Scene :=
  empty.add ⟨"a", "circle", "a", 0, 0, .int size, .int size, Table.empty⟩

/-- Validation does not return for every value: a size that is negative is shown, and it may have
more digits than are written. -/
theorem not_forall_issues : ¬ ∀ (origin : Json.Origin) (document : Json),
    ∃ found, issues origin document = .ok found := by
  intro hall
  have hlong : ∃ f ∈ documentCheck .memory (oneCircle (-(Nat.pow 10 4300 : ℕ))).toDocument,
      f.message.toOption = none := by
    decide +kernel
  obtain ⟨f, hf, hmessage⟩ := hlong
  obtain ⟨issue, hissue⟩ := exists_mapM_eq_ok.1 (hall .memory _) f
    (mem_findings_of_mem_documentCheck hf)
  obtain ⟨words, hwords, -⟩ := map_eq_ok.1 hissue
  rw [hwords] at hmessage
  cases hmessage

end Scene

end SceneScript
