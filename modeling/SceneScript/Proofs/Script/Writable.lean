import SceneScript.Proofs.Json.Reading
import SceneScript.Proofs.Scene.Valid
import SceneScript.Proofs.Script.Patch

/-!
# Elements that can be written

Of a valid element with finite numbers everything in its block can be had, with one exception: under
a prop that is written as a number there may be a text, and a text need not be read as a number.

Main statement: the block of such an element can be written exactly when the texts that it stores
can be written where they are (`Element.Valid.exists_block_iff`).
-/

namespace SceneScript

/-! ## Values -/

/-- That a text can be written in a format: as a literal always, as a number if it is read as one,
and rounded if it is read as a finite one. -/
def Format.WritesText : Format → List Char → Prop
  | .quoted, _ => True
  | .rounded, s => ∃ x, readDouble s = .ok x ∧ x.isFinite = true
  | .number, s => ∃ x, readDouble s = .ok x

theorem Binary64.isFinite_of_floor? {x : Binary64} {n : ℤ}
    (h : (x.add oneHalf).floor? = some n) : x.isFinite = true := by
  rw [oneHalf_eq] at h
  cases x with
  | nan => cases h
  | infinite negative => cases h
  | finite negative mantissa shift hc => rfl

/-- Only finite numbers are rounded. -/
theorem Num.exists_roundHalfUp_double {x : Binary64} :
    (∃ n, (Num.double x).roundHalfUp = .ok n) ↔ x.isFinite = true := by
  constructor
  · rintro ⟨n, hn⟩
    obtain ⟨y, hy, hround⟩ := bind_eq_ok.1 hn
    obtain rfl : x = y := Except.ok.inj hy
    unfold wholePart at hround
    split at hround
    · next m hm => exact Binary64.isFinite_of_floor? hm
    · cases hround
  · intro h
    obtain ⟨n, hn, -⟩ := roundHalfUp_of_finite (finite_double h)
    exact ⟨n, hn⟩

namespace Argument

theorem exists_write_rounded {v : Json} :
    (∃ token, write .rounded (some v) = .ok token) ↔
      ∃ n, v.asNumber = .ok n ∧ ∃ m, n.roundHalfUp = .ok m := by
  rw [write, exists_bind_eq_ok]
  refine exists_congr fun n => and_congr_right fun _ => ?_
  rw [exists_bind_eq_ok]
  exact exists_congr fun m => and_iff_left ⟨intDigits m, rfl⟩

theorem exists_write_number {v : Json} :
    (∃ token, write .number (some v) = .ok token) ↔
      ∃ n, v.asNumber = .ok n ∧ ∃ x, n.toDouble = .ok x := by
  rw [write, exists_bind_eq_ok]
  refine exists_congr fun n => and_congr_right fun _ => ?_
  rw [Num.plain, exists_bind_eq_ok]
  exact exists_congr fun x => and_iff_left ⟨_, rfl⟩

/-- A text is written exactly when it can be. -/
theorem exists_write_str {f : Format} {t : String} :
    (∃ token, write f (some (.str t)) = .ok token) ↔ f.WritesText t.toList := by
  cases f with
  | quoted => exact iff_of_true ⟨_, rfl⟩ trivial
  | rounded =>
    rw [exists_write_rounded, Json.asNumber]
    simp only [map_eq_ok]
    constructor
    · rintro ⟨n, ⟨x, hx, rfl⟩, hround⟩
      exact ⟨x, hx, Num.exists_roundHalfUp_double.1 hround⟩
    · rintro ⟨x, hx, hfinite⟩
      exact ⟨_, ⟨x, hx, rfl⟩, Num.exists_roundHalfUp_double.2 hfinite⟩
  | number =>
    rw [exists_write_number, Json.asNumber]
    simp only [map_eq_ok]
    constructor
    · rintro ⟨n, ⟨x, hx, rfl⟩, -⟩
      exact ⟨x, hx⟩
    · rintro ⟨x, hx⟩
      exact ⟨_, ⟨x, hx, rfl⟩, x, rfl⟩

/-- A finite number is written in any format. -/
theorem exists_write_num {n : Num} (h : n.Finite) (f : Format) :
    ∃ token, write f (some (.num n)) = .ok token := by
  cases f with
  | quoted =>
    obtain ⟨s, hs⟩ := Json.exists_text (Json.holds_num.2 (Num.short_of_finite h))
    exact ⟨_, map_eq_ok.2 ⟨s, hs, rfl⟩⟩
  | rounded =>
    obtain ⟨m, hm, -⟩ := Num.roundHalfUp_of_finite h
    exact exists_write_rounded.2 ⟨n, rfl, m, hm⟩
  | number =>
    obtain ⟨x, hx, -⟩ := h
    exact exists_write_number.2 ⟨n, rfl, x, hx⟩

end Argument

/-! ## Elements -/

/-- All numbers of an element are finite. -/
structure Element.Finite (e : Element) : Prop where
  x : e.x.Finite
  y : e.y.Finite
  w : e.w.Finite
  h : e.h.Finite
  props : ∀ prop ∈ e.props.entries, ∀ n, prop.2 = .num n → n.Finite

/-- The texts that an element stores under the props of its statements can be written there. -/
def Element.Writable (e : Element) : Prop :=
  ∀ shape, shapeOf? e.type = some shape → ∀ p ∈ shape.written, ∀ t,
    e.storedProp? p.1 = some (.str t) → p.2.WritesText t.toList

namespace Element.Valid

variable {e : Element} (h : e.Valid) (hfinite : e.Finite)

include h hfinite

omit hfinite in
theorem exists_shapeOf? : ∃ shape, shapeOf? e.type = some shape := by
  obtain ⟨t, ht, hc⟩ := h.type
  rw [← ElementType.name_of_ofName? ht]
  exact Option.isSome_iff_exists.1 (isSome_shapeOf? t hc)

/-- A stored value is a text or a finite number. -/
theorem stored_cases {key : String} {v : Json} (hv : e.storedProp? key = some v) :
    (∃ t, v = .str t) ∨ ∃ n, v = .num n ∧ n.Finite := by
  unfold storedProp? at hv
  split at hv
  · cases hv
  · next hne =>
    have hmem := Table.mem_of_get? hv
    have hstorable := h.storable _ hmem
    cases v with
    | str t => exact .inl ⟨t, rfl⟩
    | num n => exact .inr ⟨n, rfl, hfinite.props _ hmem n rfl⟩
    | null => exact absurd hv hne
    | bool b => exact hstorable.elim
    | arr items => exact hstorable.elim
    | obj members => exact hstorable.elim

/-- The argument of a prop is written exactly when a text that is stored there can be written. -/
theorem exists_render_prop_iff {key : String} {f : Format}
    (ha : (Argument.mk (.prop key) f).Supported e.type) :
    (∃ token, (Argument.mk (.prop key) f).render e = .ok token) ↔
      ∀ t, e.storedProp? key = some (.str t) → f.WritesText t.toList := by
  have hrender : (Argument.mk (.prop key) f).render e =
    e.resolveProp key >>= Argument.write f := rfl
  rw [hrender]
  cases hstored : e.storedProp? key with
  | some v =>
    have hresolve : e.resolveProp key = .ok (some v) := by rw [resolveProp, hstored]
    rw [hresolve]
    change (∃ token, Argument.write f (some v) = .ok token) ↔ _
    rcases h.stored_cases hfinite hstored with ⟨t, rfl⟩ | ⟨n, rfl, hn⟩
    · rw [Argument.exists_write_str]
      simp
    · exact iff_of_true (Argument.exists_write_num hn f) (by simp)
  | none =>
    obtain ⟨spec, hspec, hfits, hvalue⟩ := ha
    obtain ⟨v, hv, hadmits⟩ := exists_resolveProp_of_none hfinite.w hspec hvalue hstored
    obtain ⟨token, -, hwrite, -⟩ := Format.write_of_admits hfits hadmits
    rw [hv]
    exact iff_of_true ⟨token, hwrite⟩ (by simp)

/-- An argument is written exactly when a text that is stored for it can be written. -/
theorem exists_render_iff {a : Argument} (ha : a.Supported e.type) :
    (∃ token, a.render e = .ok token) ↔ ∀ p, a.written? = some p → ∀ t,
      e.storedProp? p.1 = some (.str t) → p.2.WritesText t.toList := by
  obtain ⟨source, f⟩ := a
  cases source with
  | width =>
    exact iff_of_true (Argument.exists_write_num hfinite.w f) (by simp [Argument.written?])
  | height =>
    exact iff_of_true (Argument.exists_write_num hfinite.h f) (by simp [Argument.written?])
  | prop key =>
    rw [h.exists_render_prop_iff hfinite ha]
    simp [Argument.written?]

/-- The arguments of a shape are written exactly when all texts that are stored for them can be. -/
theorem exists_arguments_iff {args : List Argument} (hargs : ∀ a ∈ args, a.Supported e.type) :
    (∃ tokens, args.mapM (fun a => a.render e) = .ok tokens) ↔
      ∀ p ∈ args.filterMap Argument.written?, ∀ t,
        e.storedProp? p.1 = some (.str t) → p.2.WritesText t.toList := by
  rw [exists_mapM_eq_ok]
  simp only [List.mem_filterMap]
  constructor
  · rintro hall p ⟨a, ha, hp⟩
    exact (h.exists_render_iff hfinite (hargs a ha)).1 (hall a ha) p hp
  · intro hall a ha
    exact (h.exists_render_iff hfinite (hargs a ha)).2 fun p hp => hall p ⟨a, ha, hp⟩

/-- The statements of a slider are written exactly when texts for its bounds can be. -/
theorem exists_buildSlider_iff {s : Shape} (htype : e.type = ElementType.slider.name) :
    (∃ σs, s.buildSlider e = .ok σs) ↔
      ∀ p ∈ [("var", Format.quoted), ("min", .number), ("max", .number)], ∀ t,
        e.storedProp? p.1 = some (.str t) → p.2.WritesText t.toList := by
  have hvar : ∃ v, e.resolveProp "var" = .ok v ∧ ∃ var, (v.getD .null).text = .ok var := by
    unfold resolveProp
    cases hstored : e.storedProp? "var" with
    | some v =>
      refine ⟨some v, rfl, Json.exists_text ?_⟩
      rcases h.stored_cases hfinite hstored with ⟨t, rfl⟩ | ⟨n, rfl, hn⟩
      · exact Json.holds_str t
      · exact Json.holds_num.2 (Num.short_of_finite hn)
    | none => simp [htype, Json.text]
  obtain ⟨v, hv, var, hvar⟩ := hvar
  have hmin : (Argument.mk (.prop "min") .number).Supported e.type := by
    rw [htype]
    decide
  have hmax : (Argument.mk (.prop "max") .number).Supported e.type := by
    rw [htype]
    decide
  have hbuild : (∃ σs, s.buildSlider e = .ok σs) ↔
      (∃ low, Shape.numberProp e "min" = .ok low) ∧
        ∃ high, Shape.numberProp e "max" = .ok high := by
    rw [Shape.buildSlider, hv]
    change (∃ σs, (Shape.numberProp e "min" >>= _) = .ok σs) ↔ _
    rw [exists_bind_eq_ok]
    constructor
    · rintro ⟨low, hlow, hrest⟩
      obtain ⟨high, hhigh, -⟩ := exists_bind_eq_ok.1 hrest
      exact ⟨⟨low, hlow⟩, high, hhigh⟩
    · rintro ⟨⟨low, hlow⟩, high, hhigh⟩
      refine ⟨low, hlow, exists_bind_eq_ok.2 ⟨high, hhigh, exists_bind_eq_ok.2 ⟨var, hvar, ?_⟩⟩⟩
      exact ⟨_, rfl⟩
  rw [hbuild, Shape.numberProp, Shape.numberProp, h.exists_render_prop_iff hfinite hmin,
    h.exists_render_prop_iff hfinite hmax]
  simp [Format.WritesText]

/-- The statements of an element are written exactly when the texts that it stores can be. -/
theorem exists_statements_iff : (∃ σs, e.statements = .ok σs) ↔ e.Writable := by
  obtain ⟨shape, hshape⟩ := h.exists_shapeOf?
  obtain ⟨hmem, htype⟩ := shapeOf?_eq_some hshape
  have hwell := wellFormed_of_mem_shapes shape hmem
  have hargs : ∀ a ∈ shape.arguments, a.Supported e.type := htype ▸ hwell.supported
  have hwritable : e.Writable ↔ ∀ p ∈ shape.written, ∀ t,
      e.storedProp? p.1 = some (.str t) → p.2.WritesText t.toList := by
    rw [Writable, hshape]
    simp
  have hcall : ∀ build : List (List Char) → List Line, (∃ σs,
      ((shape.arguments.mapM fun a => a.render e) >>= fun tokens => .ok (build tokens)) = .ok σs) ↔
      ∃ tokens, (shape.arguments.mapM fun a => a.render e) = .ok tokens := by
    intro build
    rw [exists_bind_eq_ok]
    exact exists_congr fun tokens => and_iff_left ⟨_, rfl⟩
  rw [hwritable, statements, hshape]
  dsimp only
  unfold Shape.build Shape.written
  cases hform : shape.form with
  | comment => simp [hwell.comment hform]
  | slider =>
    rw [if_pos rfl]
    exact h.exists_buildSlider_iff hfinite (htype ▸ congrArg _ (hwell.slider hform))
  | call =>
    rw [if_neg (by decide)]
    exact (hcall _).trans (h.exists_arguments_iff hfinite hargs)
  | conditional =>
    rw [if_neg (by decide)]
    exact (hcall _).trans (h.exists_arguments_iff hfinite hargs)

/-- The block of an element is written exactly when the texts that it stores can be. -/
theorem exists_block_iff (indent : List Char) :
    (∃ block, e.block indent = .ok block) ↔ e.Writable := by
  rw [← h.exists_statements_iff hfinite]
  obtain ⟨w, hw, -⟩ := Num.roundHalfUp_of_finite hfinite.w
  obtain ⟨height, hh, -⟩ := Num.roundHalfUp_of_finite hfinite.h
  obtain ⟨x, hx, -⟩ := Num.roundHalfUp_of_finite hfinite.x
  obtain ⟨y, hy, -⟩ := Num.roundHalfUp_of_finite hfinite.y
  have hmarker : ∃ marker, Marker.line e = .ok marker := by
    simp [Marker.line, hw, hh, bind, Except.bind, pure, Except.pure]
  have hmove : ∃ move, e.moveLine = .ok move := by
    simp [moveLine, hx, hy, bind, Except.bind, pure, Except.pure]
  obtain ⟨marker, hmarker⟩ := hmarker
  obtain ⟨move, hmove⟩ := hmove
  rw [block, hmarker, hmove]
  change (∃ block, (e.statements >>= _) = .ok block) ↔ _
  rw [exists_bind_eq_ok]
  exact exists_congr fun σs => and_iff_left ⟨_, rfl⟩

end Element.Valid

end SceneScript
