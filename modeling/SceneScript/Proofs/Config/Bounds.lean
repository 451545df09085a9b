import SceneScript.Command.Failure
import SceneScript.Proofs.Number.Order
import SceneScript.Proofs.Number.Sum
import SceneScript.Proofs.Script.Size
import SceneScript.Proofs.Table
import SceneScript.Session.Basic

/-!
# Configurations that are accepted

Loading reads the fields of a configuration one after the other and compares what it has read with
the bounds. Two things get past it:

* A number without a counterpart, which is a whole number too large for a place or an infinite
  length of ids (`EditorConfig.OutOfRange`), stops the loading with an error that is not one of a
  document.
* Not-a-number is not below any bound, so it is accepted as the least size
  (`EditorConfig.ExtentIsNaN`), and every element that is resized then has no size.

Main statement: there is nothing else. A configuration that is accepted is within its bounds but for
that, and all other values are refused as documents (`EditorConfig.exists_ofValue`).
-/

namespace SceneScript

/-! ## Values under names -/

namespace Yaml.Value

/-- The value under a name of a mapping. -/
def member? (v : Value) (name : String) : Option Value := v.members?.bind (Entries.get? · name)

/-- The value to which some names lead, one inside the other. -/
def at? (v : Value) : List String → Option Value
  | [] => some v
  | name :: names => (v.member? name).bind (at? · names)

variable {v : Value} {e : NumberError}

theorem not_isOverflow_of_readDouble {s : List Char} (h : readDouble s = .error e) :
    e.isOverflow = false := by
  unfold readDouble at h
  dsimp only at h
  split at h
  · cases h
  · split at h <;> cases h
    rfl

theorem not_isOverflow_of_readWhole {s : List Char} (h : readWhole s = .error e) :
    e.isOverflow = false := by
  unfold readWhole at h
  dsimp only at h
  split at h
  · cases h
    rfl
  · split_ifs at h <;> cases h <;> rfl

/-- A value that is taken as a number is never out of range. -/
theorem not_isOverflow_of_asNumber (h : v.asNumber = .error e) : e.isOverflow = false := by
  cases v with
  | json v =>
    cases v with
    | num n | bool b => cases h
    | str s =>
      rw [asNumber, Json.asNumber] at h
      cases hread : readDouble s.toList with
      | ok x =>
        rw [hread] at h
        cases h
      | error e' =>
        rw [hread] at h
        cases h
        exact not_isOverflow_of_readDouble hread
    | null | arr items | obj members =>
      cases h
      rfl
  | moment m | list items | mapping members =>
    cases h
    rfl

/-- Only whole numbers are taken as whole numbers, besides truth values. -/
theorem asNumber_eq_int {n : ℤ} (h : v.asNumber = .ok (.int n)) :
    v = .json (.num (.int n)) ∨ n = 0 ∨ n = 1 := by
  cases v with
  | json v =>
    cases v with
    | num m =>
      rw [asNumber, Json.asNumber] at h
      exact .inl (Except.ok.inj h ▸ rfl)
    | bool b =>
      cases h
      cases b <;> simp
    | str s =>
      rw [asNumber, Json.asNumber, map_eq_ok] at h
      obtain ⟨x, -, hx⟩ := h
      cases hx
    | null | arr items | obj members => cases h
  | moment m | list items | mapping members => cases h

/-- Only an infinite number is out of range as a whole one. -/
theorem of_asWhole_overflow (h : v.asWhole = .error e) (he : e.isOverflow = true) :
    ∃ negative, v = .json (.num (.double (.infinite negative))) := by
  cases v with
  | json v =>
    cases v with
    | num n =>
      cases n with
      | int n => cases h
      | double x =>
        cases x with
        | nan =>
          cases h
          cases he
        | infinite negative => exact ⟨negative, rfl⟩
        | finite negative mantissa shift hc => cases h
    | bool b => cases h
    | str s =>
      rw [not_isOverflow_of_readWhole h] at he
      cases he
    | null | arr items | obj members =>
      cases h
      cases he
  | moment m | list items | mapping members =>
    cases h
    cases he

end Yaml.Value

namespace EditorConfig

open Yaml (Value)

/-! ## Sections and fields -/

/-- What is under the names of a section. -/
theorem get?_section {members section_ : List (String × Value)} {key name : String}
    (h : section? members key name = .ok section_) (name' : String) :
    Entries.get? section_ name' = (Entries.get? members key).bind (·.member? name') := by
  unfold section? at h
  split at h
  · next hget =>
    rw [hget]
    cases h
    rfl
  · next v hget =>
    rw [hget, Option.bind_some, Value.member?]
    split at h
    · next members' hmembers =>
      cases h
      rw [hmembers, Option.bind_some]
    · cases h

/-- A refusal of a section is one of a document. -/
theorem not_overflow_of_section {members : List (String × Value)} {key name : String}
    {e : ConfigError} (h : section? members key name = .error e) (cause : NumberError) :
    e ≠ .overflow cause := by
  rintro rfl
  unfold section? at h
  split at h
  · cases h
  · split at h <;> cases h

theorem fits_of_small {n : ℤ} (h : n.natAbs ≤ 100) : (Num.int n).Fits := by
  have hwhole : (Num.int n).IsWholeWithin (Nat.pow 2 50) :=
    ⟨n, rfl, h.trans (by decide)⟩
  obtain ⟨x, hx, -⟩ := hwhole.finite
  exact ⟨x, hx⟩

theorem converted_eq_ok {α : Type} {r : Except NumberError α} {a : α} :
    converted r = .ok a ↔ r = .ok a := by
  cases r <;> simp [converted]

theorem of_converted_overflow {α : Type} {r : Except NumberError α} {cause : NumberError}
    (h : converted r = .error (.overflow cause)) :
    r = .error cause ∧ cause.isOverflow = true := by
  cases r with
  | ok a => cases h
  | error e =>
    rw [converted, Except.error.injEq] at h
    split at h
    · next he =>
      cases h
      exact ⟨rfl, he⟩
    · cases h

variable {members : List (String × Value)} {key : String}

/-- A field that is read as a binary64 number, given or not. -/
theorem double_eq_ok {default n : Num} (h : double members key default = .ok n) :
    ∃ x m, n = .double x ∧
      ((Entries.get? members key).getD (.json (.num default))).asNumber = .ok m ∧
        m.toDouble = .ok x := by
  obtain ⟨m, hm, h⟩ := bind_eq_ok.1 (converted_eq_ok.1 h)
  obtain ⟨x, hx, h⟩ := bind_eq_ok.1 h
  cases h
  exact ⟨x, m, rfl, hm, hx⟩

/-- Only a whole number that is given is out of range for a place or a size. -/
theorem of_double_overflow {default : Num} (hdefault : default.Fits) {cause : NumberError}
    (h : double members key default = .error (.overflow cause)) :
    ∃ n : ℤ, Entries.get? members key = some (.json (.num (.int n))) ∧ ¬ (Num.int n).Fits := by
  obtain ⟨h, hoverflow⟩ := of_converted_overflow h
  rcases bind_eq_error.1 h with hm | ⟨m, hm, h⟩
  · rw [Value.not_isOverflow_of_asNumber hm] at hoverflow
    cases hoverflow
  rcases bind_eq_error.1 h with hx | ⟨x, -, h⟩
  · cases m with
    | double x => cases hx
    | int n =>
      have hn : ¬ (Num.int n).Fits := fun ⟨x, hfits⟩ => by
        rw [hx] at hfits
        cases hfits
      rcases Value.asNumber_eq_int hm with hv | rfl | rfl
      · refine ⟨n, ?_, hn⟩
        cases hget : Entries.get? members key with
        | none =>
          rw [hget] at hv
          cases hv
          exact absurd hdefault hn
        | some v =>
          rw [hget] at hv
          exact congrArg some hv
      · exact absurd (fits_of_small (by decide)) hn
      · exact absurd (fits_of_small (by decide)) hn
  · cases h

/-- Only an infinite number that is given is out of range for a length. -/
theorem of_whole_overflow {default : ℤ} {cause : NumberError}
    (h : whole members key default = .error (.overflow cause)) :
    ∃ negative, Entries.get? members key = some (.json (.num (.double (.infinite negative)))) := by
  obtain ⟨h, hoverflow⟩ := of_converted_overflow h
  obtain ⟨negative, hv⟩ := Value.of_asWhole_overflow h hoverflow
  cases hget : Entries.get? members key with
  | none =>
    rw [hget] at hv
    cases hv
  | some v =>
    rw [hget] at hv
    exact ⟨negative, congrArg some hv⟩

/-! ## What gets past the loading -/

/-- The names that lead to the least size and to the place of new elements. -/
def doubleFields : List (List String) :=
  [["geometry", "min_extent"], ["geometry", "spawn", "x"], ["geometry", "spawn", "y"]]

/-- That a number of a configuration has no counterpart: a size or a place that is a whole number
too large for binary64, or an infinite length. -/
inductive OutOfRange (v : Value) : Prop
  | double {names : List String} (hnames : names ∈ doubleFields) {n : ℤ}
      (hat : v.at? names = some (.json (.num (.int n)))) (hn : ¬ (Num.int n).Fits)
  | length {negative : Bool}
      (hat : v.at? ["ids", "length"] = some (.json (.num (.double (.infinite negative)))))

/-- That the least size of a configuration is read as not-a-number. -/
def ExtentIsNaN (v : Value) : Prop :=
  ∃ m, v.at? ["geometry", "min_extent"] = some m ∧ m.asNumber = .ok (.double .nan)

/-- That the parts of a value are there from which a configuration is read: the sections, with what
stands in them. -/
structure Sections (v : Value) (geometry ids script spawn : List (String × Value)) : Prop where
  geometry : ∀ name, Entries.get? geometry name = v.at? ["geometry", name]
  ids : ∀ name, Entries.get? ids name = v.at? ["ids", name]
  script : ∀ name, Entries.get? script name = v.at? ["script", name]
  spawn : ∀ name, Entries.get? spawn name = v.at? ["geometry", "spawn", name]

theorem sections_of_members {v : Value} {members geometry ids script spawn : List (String × Value)}
    (hv : v.members? = some members)
    (hgeometry : section? members "geometry" "geometry" = .ok geometry)
    (hids : section? members "ids" "ids" = .ok ids)
    (hscript : section? members "script" "script" = .ok script)
    (hspawn : section? geometry "spawn" "geometry.spawn" = .ok spawn) :
    Sections v geometry ids script spawn := by
  have hat : ∀ {key label section_}, section? members key label = .ok section_ → ∀ name,
      Entries.get? section_ name = v.at? [key, name] := by
    intro key label section_ h name
    simp [get?_section h, Value.at?, Value.member?, hv]
  refine ⟨hat hgeometry, hat hids, hat hscript, fun name => ?_⟩
  rw [get?_section hspawn, hat hgeometry]
  simp [Value.at?, Option.bind_assoc]

variable {v : Value} {config : EditorConfig}

/-- What has been read of a configuration that is accepted. -/
theorem exists_of_ofValue (h : ofValue v = .ok config) :
    ∃ geometry ids script spawn, Sections v geometry ids script spawn ∧
      double geometry "min_extent" default.minExtent = .ok config.minExtent ∧
      double spawn "x" default.spawnX = .ok config.spawnX ∧
      double spawn "y" default.spawnY = .ok config.spawnY ∧
      whole ids "length" default.idLength = .ok config.idLength ∧
      placeholderIn script = .ok config.placeholder ∧ checked config = .ok config := by
  unfold ofValue at h
  split at h
  · cases h
  next members hv =>
  obtain ⟨geometry, hgeometry, h⟩ := bind_eq_ok.1 h
  obtain ⟨ids, hids, h⟩ := bind_eq_ok.1 h
  obtain ⟨script, hscript, h⟩ := bind_eq_ok.1 h
  obtain ⟨spawn, hspawn, h⟩ := bind_eq_ok.1 h
  obtain ⟨minExtent, hminExtent, h⟩ := bind_eq_ok.1 h
  obtain ⟨spawnX, hspawnX, h⟩ := bind_eq_ok.1 h
  obtain ⟨spawnY, hspawnY, h⟩ := bind_eq_ok.1 h
  obtain ⟨idLength, hidLength, h⟩ := bind_eq_ok.1 h
  obtain ⟨placeholder, hplaceholder, h⟩ := bind_eq_ok.1 h
  have hsections := sections_of_members hv hgeometry hids hscript hspawn
  obtain rfl : EditorConfig.mk minExtent spawnX spawnY idLength placeholder = config := by
    unfold checked at h
    split_ifs at h
    exact Except.ok.inj h
  exact ⟨geometry, ids, script, spawn, hsections, hminExtent, hspawnX, hspawnY, hidLength,
    hplaceholder, h⟩

/-- Loading stops with a number that is out of range only where there is one. -/
theorem outOfRange_of_overflow {cause : NumberError} (h : ofValue v = .error (.overflow cause)) :
    OutOfRange v := by
  have hsmall : ∀ {n : ℤ}, n.natAbs ≤ 100 → (Num.int n).Fits := fits_of_small
  unfold ofValue at h
  split at h
  · cases h
  next members hv =>
  rcases bind_eq_error.1 h with hsection | ⟨geometry, hgeometry, h⟩
  · exact absurd rfl (not_overflow_of_section hsection cause)
  rcases bind_eq_error.1 h with hsection | ⟨ids, hids, h⟩
  · exact absurd rfl (not_overflow_of_section hsection cause)
  rcases bind_eq_error.1 h with hsection | ⟨script, hscript, h⟩
  · exact absurd rfl (not_overflow_of_section hsection cause)
  rcases bind_eq_error.1 h with hsection | ⟨spawn, hspawn, h⟩
  · exact absurd rfl (not_overflow_of_section hsection cause)
  have hsections := sections_of_members hv hgeometry hids hscript hspawn
  rcases bind_eq_error.1 h with hdouble | ⟨minExtent, -, h⟩
  · obtain ⟨n, hget, hn⟩ := of_double_overflow (hsmall (by decide)) hdouble
    exact .double (by simp [doubleFields]) ((hsections.geometry _).symm.trans hget) hn
  rcases bind_eq_error.1 h with hdouble | ⟨spawnX, -, h⟩
  · obtain ⟨n, hget, hn⟩ := of_double_overflow (hsmall (by decide)) hdouble
    exact .double (by simp [doubleFields]) ((hsections.spawn _).symm.trans hget) hn
  rcases bind_eq_error.1 h with hdouble | ⟨spawnY, -, h⟩
  · obtain ⟨n, hget, hn⟩ := of_double_overflow (hsmall (by decide)) hdouble
    exact .double (by simp [doubleFields]) ((hsections.spawn _).symm.trans hget) hn
  rcases bind_eq_error.1 h with hwhole | ⟨idLength, -, h⟩
  · obtain ⟨negative, hget⟩ := of_whole_overflow hwhole
    exact .length ((hsections.ids _).symm.trans hget)
  rcases bind_eq_error.1 h with hplaceholder | ⟨placeholder, -, h⟩
  · unfold placeholderIn at hplaceholder
    split at hplaceholder <;> cases hplaceholder
  · unfold checked at h
    split_ifs at h <;> cases h

/-! ## What is accepted -/

/-- A field that has been read as a binary64 number is in range. -/
theorem fits_of_double {members : List (String × Value)} {key : String} {default value : Num}
    {n : ℤ} (h : double members key default = .ok value)
    (hget : Entries.get? members key = some (.json (.num (.int n)))) : (Num.int n).Fits := by
  obtain ⟨x, m, -, hm, hx⟩ := double_eq_ok h
  rw [hget] at hm
  cases hm
  exact ⟨x, hx⟩

/-- No number of a configuration that is accepted is out of range. -/
theorem not_outOfRange (h : ofValue v = .ok config) : ¬ OutOfRange v := by
  obtain ⟨geometry, ids, script, spawn, hsections, hextent, hx, hy, hlength, -, -⟩ :=
    exists_of_ofValue h
  intro hout
  cases hout with
  | @double names hnames n hat hn =>
    simp only [doubleFields, List.mem_cons, List.not_mem_nil, or_false] at hnames
    rcases hnames with rfl | rfl | rfl
    · exact hn (fits_of_double hextent ((hsections.geometry _).trans hat))
    · exact hn (fits_of_double hx ((hsections.spawn _).trans hat))
    · exact hn (fits_of_double hy ((hsections.spawn _).trans hat))
  | length hat =>
    rw [← hsections.ids] at hat
    rw [whole, converted_eq_ok, hat] at hlength
    cases hlength

/-- The least size that is accepted is not-a-number exactly when it is given as that. -/
theorem isNaN_minExtent_iff (h : ofValue v = .ok config) :
    config.minExtent.isNaN = true ↔ ExtentIsNaN v := by
  obtain ⟨geometry, ids, script, spawn, hsections, hextent, -⟩ := exists_of_ofValue h
  obtain ⟨x, m, heq, hm, hx⟩ := double_eq_ok hextent
  rw [hsections.geometry] at hm
  rw [heq, ExtentIsNaN]
  constructor
  · intro hnan
    obtain rfl : x = .nan := by simpa [Num.isNaN] using hnan
    obtain rfl : m = .double .nan := by
      cases m with
      | double y => exact congrArg Num.double (Except.ok.inj hx)
      | int n => exact absurd (Num.eq_of_inRange hx) (Binary64.roundUnits_ne_nan _ _ _)
    cases hat : v.at? ["geometry", "min_extent"] with
    | none =>
      rw [hat] at hm
      cases hm
    | some value =>
      rw [hat] at hm
      exact ⟨value, rfl, hm⟩
  · rintro ⟨value, hat, hnan⟩
    rw [hat, Option.getD_some, hnan] at hm
    cases hm
    cases hx
    rfl

/-- The bounds that hold of a configuration that is accepted. -/
theorem bounds_of_ofValue (h : ofValue v = .ok config) :
    config.minExtent.le 0 = false ∧ 4 ≤ config.idLength ∧ config.idLength ≤ 32 := by
  obtain ⟨geometry, ids, script, spawn, -, -, -, -, -, -, hchecked⟩ := exists_of_ofValue h
  unfold checked at hchecked
  split_ifs at hchecked with hle hbounds
  exact ⟨Bool.eq_false_iff.2 hle, hbounds⟩

/-- The least size that is accepted is positive unless it is not-a-number. -/
theorem minExtent_pos_iff (h : ofValue v = .ok config) :
    (0 : Num).lt config.minExtent = true ↔ ¬ ExtentIsNaN v := by
  rw [← isNaN_minExtent_iff h, Bool.not_eq_true]
  constructor
  · exact fun hlt => (Num.isNaN_of_le (Num.le_of_lt hlt)).2
  · exact fun hnan => Num.lt_of_le_eq_false hnan rfl (bounds_of_ofValue h).1

/-- The placeholder is the text that is given, or the usual one. -/
theorem placeholder_of_ofValue (h : ofValue v = .ok config) :
    v.at? ["script", "placeholder_code"] = some (.json (.str config.placeholder)) ∨
      v.at? ["script", "placeholder_code"] = none ∧
        config.placeholder = EditorConfig.default.placeholder := by
  obtain ⟨geometry, ids, script, spawn, hsections, -, -, -, -, hplaceholder, -⟩ :=
    exists_of_ofValue h
  unfold placeholderIn at hplaceholder
  rw [hsections.script] at hplaceholder
  split at hplaceholder
  · next hat => exact .inr ⟨hat, (Except.ok.inj hplaceholder).symm⟩
  · next placeholder hat => exact .inl (Except.ok.inj hplaceholder ▸ hat)
  · cases hplaceholder

end EditorConfig

/-! ## Resizing -/

/-- An element that is given a size under a least one has a size above zero exactly when the least
one is above it. -/
theorem Session.resize_pos_iff {σ : Type} {s : Session σ} {id : String} {e : Element}
    (he : s.scene.elements.get? id = some e) (hleast : s.config.minExtent.le 0 = false)
    (w h : Num) :
    ∃ e' s', s.mutate (.resize id w h) = (.ok (.done true), s') ∧
      s'.scene.elements.get? id = some e' ∧
      ((0 : Num).lt e'.w = true ∧ (0 : Num).lt e'.h = true ↔
        (0 : Num).lt s.config.minExtent = true) := by
  have hmutate : s.mutate (.resize id w h) = (.ok (.done true), { s with
      scene := s.scene.replace id
        { e with w := s.config.minExtent.max w, h := s.config.minExtent.max h } }) := by
    rw [Session.mutate, Session.edit, he]
    rfl
  refine ⟨_, _, hmutate, Table.get?_insert_self _ _ _, ?_⟩
  cases hnan : s.config.minExtent.isNaN with
  | true =>
    rw [Num.max_of_isNaN hnan, Num.max_of_isNaN hnan, Num.lt_eq_false_of_isNaN hnan]
    simp
  | false =>
    have hpos := Num.lt_of_le_eq_false hnan rfl hleast
    exact iff_of_true ⟨Num.lt_of_lt_of_le hpos (Num.le_max_left hnan w),
      Num.lt_of_lt_of_le hpos (Num.le_max_left hnan h)⟩ hpos

/-! ## Loading -/

namespace EditorConfig

open Yaml (Value)

/-- A value is accepted as a configuration, or refused. What is accepted has a length of ids and a
placeholder within bounds, and a least size that is positive, and with it every size that is given
to an element, unless it is given as not-a-number. What is refused is refused as a document, unless
a number in it is out of range. -/
theorem exists_ofValue (v : Value) :
    (∃ config, ofValue v = .ok config ∧ ¬ OutOfRange v ∧
      (4 ≤ config.idLength ∧ config.idLength ≤ 32) ∧
      (v.at? ["script", "placeholder_code"] = some (.json (.str config.placeholder)) ∨
        v.at? ["script", "placeholder_code"] = none ∧
          config.placeholder = EditorConfig.default.placeholder) ∧
      ((0 : Num).lt config.minExtent = true ↔ ¬ ExtentIsNaN v) ∧
      ∀ (σ : Type) (s : Session σ), s.config = config → ∀ id e, s.scene.elements.get? id = some e →
        ∀ w h, ∃ e' s', s.mutate (.resize id w h) = (.ok (.done true), s') ∧
          s'.scene.elements.get? id = some e' ∧
          ((0 : Num).lt e'.w = true ∧ (0 : Num).lt e'.h = true ↔ ¬ ExtentIsNaN v)) ∨
    ∃ error, ofValue v = .error error ∧
      ((Command.Failure.config error).isDocument = true ∨ OutOfRange v) := by
  cases h : ofValue v with
  | error error =>
    refine .inr ⟨error, rfl, ?_⟩
    cases error with
    | overflow cause => exact .inr (outOfRange_of_overflow h)
    | rootNotObject | sectionNotObject name | notNumeric cause | placeholderNotText
    | extentNotPositive | idLengthOutOfBounds => exact .inl rfl
  | ok config =>
    obtain ⟨hleast, hlength⟩ := bounds_of_ofValue h
    have hpos := minExtent_pos_iff h
    refine .inl ⟨config, rfl, not_outOfRange h, hlength, placeholder_of_ofValue h, hpos, ?_⟩
    rintro σ s rfl id e he w height
    rw [← hpos]
    exact Session.resize_pos_iff he hleast w height

/-- A configuration with not-a-number as least size. -/
def boundless : Value :=
  .json (.obj [("geometry", .obj [("min_extent", .num (.double .nan))])])

/-- Not every value is either refused as a document or gives a configuration within its bounds. -/
theorem not_forall_ofValue : ¬ ∀ v : Value,
    (∃ error, ofValue v = .error error ∧ (Command.Failure.config error).isDocument = true) ∨
      ∃ config, ofValue v = .ok config ∧ (0 : Num).lt config.minExtent = true ∧
        4 ≤ config.idLength ∧ config.idLength ≤ 32 := by
  intro hall
  have hload : (ofValue boundless).toOption.map (fun config => config.minExtent.isNaN) =
      some true := by decide +kernel
  obtain ⟨config, hconfig, hnan⟩ := exists_of_toOption_map hload
  rcases hall boundless with ⟨error, herror, -⟩ | ⟨config', hconfig', hpos, -⟩
  · rw [hconfig] at herror
    cases herror
  · obtain rfl := Except.ok.inj (hconfig.symm.trans hconfig')
    rw [Num.lt_eq_false_of_isNaN hnan] at hpos
    cases hpos

end EditorConfig

end SceneScript
