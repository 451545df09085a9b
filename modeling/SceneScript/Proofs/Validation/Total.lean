import SceneScript.Proofs.Json.Reading
import SceneScript.Proofs.Scene.Sound
import SceneScript.Proofs.Validation.Document

/-!
# Where validation fails

Validation can fail in three ways. Names and indices have no order, so findings cannot be sorted if
two paths go the same way and then part with a name and an index. What ties the parts of a document
together is looked at without care for its shape. And a finding may show a value that cannot be
shown. `issues` has only the last of these failures, `issues?` has all three.

Paths of findings go along a frame (`Frame`): at every place inside a document either all of them go
on with names, or all with indices. Paths along one frame have an order (`Frame.before?_eq`). What a
finding shows is a part of the document (`Sayable`).

Main statements: the first two failures do not come up, whatever the document (`issues?_eq_some`);
the third comes with a finding that shows a whole number of more digits than are written
(`issues_eq_error_iff`), so it does not come up with a document that is read from a text
(`exists_issues_of_parse`).
-/

namespace SceneScript.Validation

/-! ## Failing -/

/-- Whether a step comes before another; a name and an index have no order. -/
def PathPart.before? : PathPart → PathPart → Option Bool
  | .key a, .key b => some (a < b)
  | .index a, .index b => some (a < b)
  | .key _, .index _ | .index _, .key _ => none

/-- Whether a path comes before another: by the first steps that are not the same, if these have an
order, or because it is shorter. -/
def Path.before? : Path → Path → Option Bool
  | _, [] => some false
  | [], _ :: _ => some true
  | a :: as, b :: bs => if a = b then before? as bs else a.before? b

/-- Findings in the order of their paths, if any two of these have an order. -/
def inPathOrder? (findings : List Finding) : Option (List Finding) :=
  if ∀ f ∈ findings, ∀ g ∈ findings, Path.before? f.path g.path ≠ none then
    some (inPathOrder findings)
  else none

/-- The members of an object. -/
def object? : Json → Option (List (String × Json))
  | .obj members => some members
  | _ => none

/-- The items of an array of texts. -/
def texts? : Json → Option (List String)
  | .arr items => items.mapM Json.string?
  | _ => none

/-- The findings about an element and its key, if it is an object with an object of props and a text
for a type. -/
def elementFindings? (key : String) (element : Json) : Option (List Finding) := do
  let members ← object? element
  let _ ← object? ((Entries.get? members "props").getD (.obj []))
  let _ ← ((Entries.get? members "type").getD (.str "")).string?
  return keyFindings key element ++ propFindings key element

/-- The findings about how the parts of a document fit together, if it is an object with an object
of such elements, and its order and its selection are arrays of texts. -/
def invariantFindings? (document : Json) : Option (List Finding) := do
  let members ← object? document
  let elements ← object? ((Entries.get? members "elements").getD (.obj []))
  let found ← elements.mapM fun e => elementFindings? e.1 e.2
  let order ← texts? ((Entries.get? members "root_order").getD (.arr []))
  let selection ← texts? ((Entries.get? members "selection").getD (.arr []))
  let keys := elements.map Prod.fst
  return found.flatten ++ orderFindings order keys ++ selectionFindings keys 0 selection

/-- The issues of a document, if its findings can be had; they may be beyond words even then. -/
def issues? (origin : Json.Origin) (document : Json) :
    Option (Except NumberError (List Issue)) := do
  let shape ← inPathOrder? (documentCheck origin document)
  let findings ← if shape.isEmpty then invariantFindings? document else some shape
  return findings.mapM Finding.issue

/-! ## Frames -/

/-- Where paths into a value may go: nowhere, on with names, or on with indices. -/
inductive Frame where
  | leaf
  | named (inside : String → Frame)
  | indexed (inside : Frame)

/-- Whether a path goes along a frame; it may end anywhere. -/
def Frame.Allows : Frame → Path → Prop
  | _, [] => True
  | .named inside, .key name :: path => (inside name).Allows path
  | .indexed inside, .index _ :: path => inside.Allows path
  | _, _ :: _ => False

theorem PathPart.before_self (part : PathPart) : part.before part = false := by
  cases part with
  | key name => simp [before]
  | index n => simp [before]

/-- Paths along one frame have an order, the one that findings are sorted by. -/
theorem Frame.before?_eq {frame : Frame} {p q : Path} (hp : frame.Allows p) (hq : frame.Allows q) :
    p.before? q = some (p.before q) := by
  induction p generalizing frame q with
  | nil => cases q <;> rfl
  | cons a p ih =>
    cases q with
    | nil => rfl
    | cons b q =>
      rw [Path.before?, Path.before]
      by_cases hab : a = b
      · -- the paths go on inside the same frame
        obtain rfl := hab
        have hinside : ∃ inside : Frame, inside.Allows p ∧ inside.Allows q := by
          cases frame <;> cases a <;> first | exact hp.elim | exact ⟨_, hp, hq⟩
        obtain ⟨inside, hp', hq'⟩ := hinside
        simp [ih hp' hq', PathPart.before_self]
      · -- they part here, both with a name or both with an index
        have hpart : a.before? b = some (a.before b) := by
          cases frame <;> cases a <;> cases b <;> first | exact hp.elim | exact hq.elim | rfl
        simp [hab, hpart]

/-! ## Words for findings -/

/-- That there are words that show a value, unless a number in the value is too long. -/
def Sayable {α : Type} (words : Except NumberError α) (v : Json) : Prop :=
  ∀ e, words = .error e → e = .tooLong ∧ ¬ v.isShort

section Sayable

variable {α β : Type} {words : Except NumberError α} {v w : Json}

theorem sayable_ok (words : α) (v : Json) : Sayable (.ok words) v := nofun

theorem sayable_shown (v : Json) : Sayable v.shown v := fun _ he => Json.shown_eq_error_iff.1 he

theorem Sayable.map (h : Sayable words v) (f : α → β) : Sayable (words.map f) v :=
  fun e he => h e (map_eq_error.1 he)

/-- What shows a part shows the whole, which has all the numbers of the part. -/
theorem Sayable.mono (h : Sayable words v) (hshort : w.isShort = true → v.isShort = true) :
    Sayable words w :=
  fun e he => (h e he).imp_right (mt hshort)

end Sayable

/-- What a check finds goes along a frame and can be put into words, whatever the value. -/
def Check.Along (check : Check) (frame : Frame) : Prop :=
  ∀ v, ∀ f ∈ check v, frame.Allows f.path ∧ Sayable f.message v

/-- What a check finds is about the whole value and can be put into words. -/
def Check.Whole (check : Check) : Prop := ∀ v, ∀ f ∈ check v, f.path = [] ∧ Sayable f.message v

namespace Check

variable {frame : Frame}

theorem along_all {checks : List Check} (h : ∀ check ∈ checks, check.Along frame) :
    (all checks).Along frame := by
  intro v f hf
  obtain ⟨check, hcheck, hf⟩ := List.mem_flatMap.1 hf
  exact h check hcheck v f hf

/-- What a check finds in a part goes on from that part. -/
theorem along_of_mem_within {check : Check} {inside : Frame} (h : check.Along inside) {v w : Json}
    (hshort : w.isShort = true → v.isShort = true) {part : PathPart}
    (hframe : ∀ path, inside.Allows path → frame.Allows (part :: path)) {f : Finding}
    (hf : f ∈ (check v).map (Finding.within part)) : frame.Allows f.path ∧ Sayable f.message w := by
  obtain ⟨g, hg, rfl⟩ := List.mem_map.1 hf
  obtain ⟨hpath, hwords⟩ := h v g hg
  exact ⟨hframe g.path hpath, hwords.mono hshort⟩

theorem along_members {check : Check} {inside : Frame} (h : check.Along inside) :
    (members check).Along (.named fun _ => inside) := by
  intro v f hf
  cases v with
  | obj ms =>
    obtain ⟨m, hm, hf⟩ := List.mem_flatMap.1 hf
    exact along_of_mem_within h (Json.isShort_of_mem hm) (fun _ hpath => hpath) hf
  | _ => cases hf

theorem along_properties {fields : List (String × Check)} (inside : String → Frame)
    (h : ∀ field ∈ fields, field.2.Along (inside field.1)) :
    (properties fields).Along (.named inside) := by
  intro v f hf
  cases v with
  | obj ms =>
    obtain ⟨field, hfield, hf⟩ := List.mem_flatMap.1 hf
    split at hf
    · next member hmember =>
      exact along_of_mem_within (h field hfield) (Json.isShort_of_mem (Entries.mem_of_get? hmember))
        (fun _ hpath => hpath) hf
    · cases hf
  | _ => cases hf

theorem along_items {check : Check} {inside : Frame} (h : check.Along inside) :
    (items check).Along (.indexed inside) := by
  have hfrom : ∀ (all vs : List Json) (n : ℕ), vs ⊆ all → ∀ f ∈ itemsFrom check n vs,
      (Frame.indexed inside).Allows f.path ∧ Sayable f.message (.arr all) := by
    intro all vs
    induction vs with
    | nil => exact fun n _ f hf => absurd hf List.not_mem_nil
    | cons v vs ih =>
      intro n hsub f hf
      obtain ⟨hv, hvs⟩ := List.cons_subset.1 hsub
      rcases List.mem_append.1 hf with hf | hf
      · exact along_of_mem_within h (Json.isShort_of_mem_arr hv) (fun _ hpath => hpath) hf
      · exact ih (n + 1) hvs f hf
  intro v f hf
  cases v with
  | arr vs => exact hfrom vs vs 0 (List.Subset.refl vs) f hf
  | _ => cases hf

/-! ### Checks of the whole value -/

theorem Whole.along {check : Check} (h : check.Whole) : check.Along frame := by
  intro v f hf
  obtain ⟨hpath, hwords⟩ := h v f hf
  refine ⟨?_, hwords⟩
  rw [hpath]
  cases frame <;> trivial

theorem sayable_about (v : Json) (words : List Char) : Sayable (about v words) v :=
  (sayable_shown v).map _

section Found

variable {message : Except NumberError (List Char)} {keyword : String} {v : Json} {f : Finding}

theorem whole_of_mem_found (hmessage : Sayable message v) (h : f ∈ found message keyword) :
    f.path = [] ∧ Sayable f.message v := by
  obtain rfl := List.mem_singleton.1 h
  exact ⟨rfl, hmessage.map _⟩

theorem whole_of_mem_ite {c : Prop} [Decidable c] (hmessage : Sayable message v)
    (h : f ∈ if c then [] else found message keyword) : f.path = [] ∧ Sayable f.message v := by
  split at h
  · cases h
  · exact whole_of_mem_found hmessage h

end Found

theorem whole_ofTypes (types : List ValueType) : (ofTypes types).Whole := by
  intro v f hf
  unfold ofTypes ofTypes.wrong at hf
  split at hf
  · exact whole_of_mem_ite (sayable_about _ _) hf
  · exact whole_of_mem_found (sayable_about _ _) hf

theorem whole_required (names : List String) : (required names).Whole := by
  intro v f hf
  cases v with
  | obj ms =>
    obtain ⟨name, -, hf⟩ := List.mem_flatMap.1 hf
    split at hf
    · cases hf
    · exact whole_of_mem_found (sayable_ok _ _) hf
  | _ => cases hf

theorem whole_closed (known : List String) : (closed known).Whole := by
  intro v f hf
  cases v with
  | obj ms =>
    unfold closed at hf
    dsimp only at hf
    split at hf
    · cases hf
    · exact whole_of_mem_found (sayable_ok _ _) hf
  | _ => cases hf

theorem whole_unique (origin : Json.Origin) : (unique origin).Whole := by
  intro v f hf
  cases v with
  | arr vs => exact whole_of_mem_ite (sayable_about _ _) hf
  | _ => cases hf

theorem whole_constant (s : String) : (constant s).Whole :=
  fun _ _ hf => whole_of_mem_ite (sayable_ok _ _) hf

theorem whole_oneOf (texts : List String) : (oneOf texts).Whole :=
  fun _ _ hf => whole_of_mem_ite (sayable_about _ _) hf

theorem whole_nonEmpty : nonEmpty.Whole := by
  intro v f hf
  cases v with
  | str s =>
    unfold nonEmpty at hf
    dsimp only at hf
    split at hf
    · exact whole_of_mem_found (sayable_about _ _) hf
    · cases hf
  | _ => cases hf

theorem whole_pattern (text : String) (accepts : List Char → Bool) :
    (pattern text accepts).Whole := by
  intro v f hf
  cases v with
  | str s => exact whole_of_mem_ite (sayable_about _ _) hf
  | _ => cases hf

theorem whole_nonNegative : nonNegative.Whole := by
  intro v f hf
  cases v with
  | num n =>
    unfold nonNegative at hf
    dsimp only at hf
    split at hf
    · exact whole_of_mem_found (sayable_about _ _) hf
    · cases hf
  | _ => cases hf

end Check

/-! ## The frame of a document -/

/-- The frame of an element: props have names. -/
def elementFrame : Frame := .named fun _ => .named fun _ => .leaf

/-- The frame of a document: elements have names, and ids in lists have indices. -/
def documentFrame : Frame :=
  .named fun name => if name = "elements" then .named fun _ => elementFrame else .indexed .leaf

theorem along_elementCheck : elementCheck.Along elementFrame := by
  have hfields : ∀ field ∈ elementFields, field.2.Along (.named fun _ => .leaf) := by
    simp only [elementFields, List.forall_mem_cons, List.not_mem_nil, false_implies, implies_true,
      and_true]
    have hnumber : (Check.ofTypes [.number]).Along (.named fun _ => .leaf) :=
      (Check.whole_ofTypes _).along
    have hsize : (Check.all [.ofTypes [.number], .nonNegative]).Along (.named fun _ => .leaf) :=
      Check.along_all (by simp [hnumber, Check.whole_nonNegative.along])
    refine ⟨Check.along_all ?_, (Check.whole_oneOf _).along, Check.along_all ?_, hnumber, hnumber,
      hsize, hsize, Check.along_all ?_⟩
    · simp [(Check.whole_ofTypes _).along, Check.whole_nonEmpty.along, Check.solid,
        (Check.whole_pattern _ _).along]
    · simp [(Check.whole_ofTypes _).along, Check.whole_nonEmpty.along, Check.visible,
        (Check.whole_pattern _ _).along]
    · simp [(Check.whole_ofTypes _).along, Check.along_members (Check.whole_ofTypes _).along]
  refine Check.along_all ?_
  simp [(Check.whole_ofTypes _).along, (Check.whole_required _).along,
    (Check.whole_closed _).along, elementFrame,
    Check.along_properties (fun _ => .named fun _ => .leaf) hfields]

theorem along_idsCheck (origin : Json.Origin) : (idsCheck origin).Along (.indexed .leaf) := by
  have htext : (Check.all [.ofTypes [.string], .nonEmpty]).Along .leaf :=
    Check.along_all (by simp [(Check.whole_ofTypes _).along, Check.whole_nonEmpty.along])
  refine Check.along_all ?_
  simp [(Check.whole_ofTypes _).along, Check.along_items htext, (Check.whole_unique _).along]

/-- What is found wrong with the shape of a document goes along one frame. -/
theorem along_documentCheck (origin : Json.Origin) :
    (documentCheck origin).Along documentFrame := by
  have hfields : ∀ field ∈ documentFields origin, field.2.Along
      (if field.1 = "elements" then .named fun _ => elementFrame else .indexed .leaf) := by
    simp only [documentFields, List.forall_mem_cons, List.not_mem_nil, false_implies, implies_true,
      and_true]
    refine ⟨Check.along_all ?_, along_idsCheck origin, Check.along_all ?_, along_idsCheck origin⟩
    · simp [(Check.whole_ofTypes _).along, (Check.whole_constant _).along]
    · simp [(Check.whole_ofTypes _).along, Check.along_members along_elementCheck]
  refine Check.along_all ?_
  simp [(Check.whole_ofTypes _).along, (Check.whole_required _).along,
    (Check.whole_closed _).along, documentFrame,
    Check.along_properties
      (fun name => if name = "elements" then .named fun _ => elementFrame else .indexed .leaf)
      hfields]

theorem inPathOrder?_documentCheck (origin : Json.Origin) (document : Json) :
    inPathOrder? (documentCheck origin document) =
      some (inPathOrder (documentCheck origin document)) := by
  refine if_pos fun f hf g hg => ?_
  rw [Frame.before?_eq (along_documentCheck origin document f hf).1
    (along_documentCheck origin document g hg).1]
  exact Option.some_ne_none _

/-! ## Documents of the right shape -/

/-- A traversal in which nothing fails. -/
theorem mapM_eq_some_map {α β : Type} {f : α → Option β} {g : α → β} {l : List α}
    (h : ∀ a ∈ l, f a = some (g a)) : l.mapM f = some (l.map g) := by
  induction l with
  | nil => rfl
  | cons a l ih =>
    have htail := ih fun a' ha' => h a' (List.mem_cons_of_mem _ ha')
    simp [List.mapM_cons, h a List.mem_cons_self, htail]

theorem texts?_map_str (ids : List String) : texts? (.arr (ids.map .str)) = some ids := by
  have htexts : ∀ v ∈ ids.map Json.str, v.string? = some v.stringD := by
    intro v hv
    obtain ⟨id, -, rfl⟩ := List.mem_map.1 hv
    rfl
  rw [texts?, mapM_eq_some_map htexts, List.map_map]
  exact congrArg some (List.map_id ids)

theorem elementFindings?_eq {key : String} {element : Json} (h : elementCheck element = []) :
    elementFindings? key element =
      some (keyFindings key element ++ propFindings key element) := by
  obtain ⟨members, rfl, -, hfields⟩ := elementCheck_eq_nil.1 h
  simp only [elementFields, List.forall_mem_cons, List.not_mem_nil, false_implies, implies_true,
    and_true, type_eq_nil, props_eq_nil] at hfields
  obtain ⟨-, ⟨_, htype, t, rfl, -⟩, -, -, -, -, -, ⟨_, hprops, props, rfl, -⟩⟩ := hfields
  simp [elementFindings?, object?, Json.string?, htype, hprops]

/-- Once the shape of a document is right, how its parts fit together can be looked at. -/
theorem invariantFindings?_eq {origin : Json.Origin} {document : Json}
    (h : documentCheck origin document = []) :
    invariantFindings? document = some (invariantFindings document) := by
  obtain ⟨members, rfl, -, -, ⟨order, horder, -⟩, ⟨elements, helements, hshaped⟩, hselection⟩ :=
    documentCheck_eq_nil.1 h
  have hfound : elements.mapM (fun e => elementFindings? e.1 e.2) =
      some (elements.map fun e => keyFindings e.1 e.2 ++ propFindings e.1 e.2) :=
    mapM_eq_some_map fun e he => elementFindings?_eq (hshaped e he)
  have hselected : texts? ((Entries.get? members "selection").getD (.arr [])) =
      some (idsOf (itemsOf (memberOf (.obj members) "selection"))) := by
    cases hmember : Entries.get? members "selection" with
    | none => simp [memberOf, Json.member?, hmember, itemsOf, idsOf, texts?]
    | some v =>
      obtain ⟨selection, rfl, -⟩ := hselection v hmember
      simp [memberOf, Json.member?, hmember, itemsOf, idsOf_map_str, texts?_map_str]
  have hordered : idsOf (itemsOf (memberOf (.obj members) "root_order")) = order := by
    simp [memberOf, Json.member?, horder, itemsOf, idsOf_map_str]
  have helements' : membersOf (memberOf (.obj members) "elements") = elements := by
    simp [memberOf, Json.member?, helements, membersOf]
  simp [invariantFindings?, invariantFindings, object?, helements, horder, hfound, hselected,
    texts?_map_str, hordered, helements', List.flatMap]

/-- The findings about a document can always be had. -/
theorem issues?_eq_some (origin : Json.Origin) (document : Json) :
    issues? origin document = some (issues origin document) := by
  rw [issues?, inPathOrder?_documentCheck]
  cases hshape : inPathOrder (documentCheck origin document) with
  | nil =>
    have hinvariants := invariantFindings?_eq (inPathOrder_eq_nil.1 hshape)
    simp [hinvariants, issues, findings, hshape]
  | cons finding rest => simp [issues, findings, hshape]

/-! ## Documents beyond words -/

theorem isShort_memberOf {v : Json} (name : String) (h : v.isShort = true) :
    (memberOf v name).isShort = true := by
  unfold memberOf Json.member?
  split
  · next members =>
    cases hmember : Entries.get? members name with
    | none => rfl
    | some member => exact Json.isShort_of_mem (Entries.mem_of_get? hmember) h
  · rfl

/-- What a finding about an element and its key shows is a part of the element. -/
theorem sayable_of_mem_keyFindings {key : String} {element : Json} {f : Finding}
    (h : f ∈ keyFindings key element) : Sayable f.message element := by
  unfold keyFindings at h
  dsimp only at h
  split at h
  · cases h
  · obtain rfl := List.mem_singleton.1 h
    exact ((sayable_shown _).map _).mono (isShort_memberOf "id")

theorem sayable_of_mem_propFindings {key : String} {element : Json} {f : Finding}
    (h : f ∈ propFindings key element) : Sayable f.message element := by
  obtain ⟨prop, -, h⟩ := List.mem_flatMap.1 h
  split at h
  · cases h
  · obtain rfl := List.mem_singleton.1 h
    exact ((sayable_shown _).map _).mono (isShort_memberOf "type")

theorem sayable_of_mem_selectionFindings {keys ids : List String} {n : ℕ} {f : Finding}
    (h : f ∈ selectionFindings keys n ids) (v : Json) : Sayable f.message v := by
  induction ids generalizing n with
  | nil => cases h
  | cons id ids ih =>
    rcases List.mem_append.1 h with h | h
    · split at h
      · cases h
      · obtain rfl := List.mem_singleton.1 h
        exact sayable_ok _ v
    · exact ih h

theorem sayable_of_mem_invariantFindings {document : Json} {f : Finding}
    (h : f ∈ invariantFindings document) : Sayable f.message document := by
  rcases List.mem_append.1 h with h | h
  · rcases List.mem_append.1 h with h | h
    · obtain ⟨e, he, h⟩ := List.mem_flatMap.1 h
      have helement : Sayable f.message e.2 :=
        (List.mem_append.1 h).elim sayable_of_mem_keyFindings sayable_of_mem_propFindings
      refine helement.mono fun hshort => ?_
      have helements := isShort_memberOf "elements" hshort
      unfold membersOf at he
      split at he
      · next members heq => exact Json.isShort_of_mem he (heq ▸ helements)
      · cases he
    · unfold orderFindings at h
      split at h
      · cases h
      · obtain rfl := List.mem_singleton.1 h
        exact sayable_ok _ document
  · exact sayable_of_mem_selectionFindings h document

/-- What a finding shows is a part of the document. -/
theorem sayable_of_mem_findings {origin : Json.Origin} {document : Json} {f : Finding}
    (h : f ∈ findings origin document) : Sayable f.message document := by
  unfold findings at h
  split at h
  · exact sayable_of_mem_invariantFindings h
  · exact (along_documentCheck origin document f ((List.mergeSort_perm _ _).mem_iff.1 h)).2

theorem mem_findings_of_mem_documentCheck {origin : Json.Origin} {document : Json} {f : Finding}
    (h : f ∈ documentCheck origin document) : f ∈ findings origin document := by
  have hmem : f ∈ inPathOrder (documentCheck origin document) :=
    (List.mergeSort_perm _ _).mem_iff.2 h
  unfold findings
  split
  · next hnil => exact absurd (hnil ▸ hmem) List.not_mem_nil
  · exact hmem

/-- The issues of a document cannot be put into words exactly when one of the findings cannot. -/
theorem issues_eq_error_iff {origin : Json.Origin} {document : Json} {e : NumberError} :
    issues origin document = .error e ↔
      e = .tooLong ∧ ∃ f ∈ findings origin document, f.message = .error .tooLong := by
  constructor
  · intro h
    obtain ⟨f, hf, he⟩ := exists_of_mapM_eq_error h
    obtain rfl := (sayable_of_mem_findings hf e (map_eq_error.1 he)).1
    exact ⟨rfl, f, hf, map_eq_error.1 he⟩
  · rintro ⟨rfl, f, hf, he⟩
    cases h : issues origin document with
    | error e =>
      obtain ⟨g, hg, he'⟩ := exists_of_mapM_eq_error h
      rw [(sayable_of_mem_findings hg e (map_eq_error.1 he')).1]
    | ok found =>
      obtain ⟨issue, hissue⟩ := exists_mapM_eq_ok.1 ⟨found, h⟩ f hf
      cases (map_eq_error.2 he : f.issue = .error .tooLong).symm.trans hissue

/-- Validation does not fail if no number in the document is too long. -/
theorem exists_issues {document : Json} (origin : Json.Origin) (h : document.isShort = true) :
    ∃ found, issues origin document = .ok found := by
  refine exists_mapM_eq_ok.2 fun f hf => exists_map_eq_ok.2 ?_
  cases hmessage : f.message with
  | error e => exact absurd h (sayable_of_mem_findings hf e hmessage).2
  | ok words => exact ⟨words, rfl⟩

/-- Validation of a document that is read from a text does not fail. -/
theorem exists_issues_of_parse {origin : Json.Origin} {text : List Char} {document : Json}
    (h : Json.parse text = .ok document) : ∃ found, issues origin document = .ok found :=
  exists_issues origin (Json.isShort_iff.2 (Json.short_of_parse h))

end SceneScript.Validation
