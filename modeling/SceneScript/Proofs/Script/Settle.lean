import SceneScript.Merge.Reconcile
import SceneScript.Proofs.Json.Reading
import SceneScript.Proofs.Script.Found
import SceneScript.Proofs.Script.RoundTrip

/-!
# Elements read back and written again

A script tells less than a scene holds: numbers are rounded, defaults become explicit, and handlers
made from names are left out. What it tells is stable, though: when the stored numbers are whole and
of moderate size, an element that was read back is written as the same block as before
(`Element.ToldAs.block_eq`), and it calls the same handler.

Main statements:

* `Element.exists_settled`: every prop that is written is written like what it is read back as.
* `Element.DescribedBy.toldAs_update`, `Element.DescribedBy.toldAs_create`: the elements that a
  candidate makes are told as the element that it describes.
-/

namespace SceneScript

open Lua Text

/-! ## Values -/

/-- A whole number of moderate size is written without a point. -/
theorem Num.plain_of_whole {v : Num} {k : ℤ} (h : v.whole? = some k)
    (hk : k.natAbs ≤ Nat.pow 2 50) : v.plain = .ok (intDigits k) := by
  obtain ⟨x, hx, hto⟩ := toDouble_of_whole h hk
  rw [plain, hx]
  change Except.ok _ = _
  rw [hto]

namespace Format

/-- That a value can be had in a format and is written like what it is read back as. -/
def Settled (f : Format) (v : Json) : Prop :=
  ∃ v', f.describe v = .ok v' ∧ v' ≠ .null ∧ Argument.write f (some v') = Argument.write f (some v)

theorem settled_quoted {v : Json} (h : v.isShort = true) : quoted.Settled v := by
  obtain ⟨s, hs⟩ := Json.exists_text (Json.isShort_iff.1 h)
  refine ⟨.str s, map_eq_ok.2 ⟨s, hs, rfl⟩, Json.noConfusion, ?_⟩
  rw [Argument.write, Argument.write, hs]
  rfl

theorem write_rounded {v : Num} {n : ℤ} (h : v.roundHalfUp = .ok n) :
    Argument.write .rounded (some (.num v)) = .ok (intDigits n) := by
  simp only [Argument.write, Json.asNumber, bind, Except.bind, h, pure, Except.pure]

theorem describe_rounded {v : Num} {n : ℤ} (h : v.roundHalfUp = .ok n) :
    rounded.describe (.num v) = .ok (.num (.int n)) := by
  simp only [describe, Json.asNumber, bind, Except.bind, h, pure, Except.pure]

theorem settled_rounded {v : Num} {n : ℤ} (h : v.roundHalfUp = .ok n)
    (hn : n.natAbs ≤ Nat.pow 2 50) : rounded.Settled (.num v) :=
  ⟨.num (.int n), describe_rounded h, Json.noConfusion,
    (write_rounded (Num.roundHalfUp_of_whole rfl hn)).trans (write_rounded h).symm⟩

theorem write_number (v : Num) : Argument.write .number (some (.num v)) = v.plain := rfl

theorem describe_number {v : Num} {x : Binary64} (h : v.toDouble = .ok x) :
    number.describe (.num v) = .ok (.num (Num.ofDouble x)) := by
  simp only [describe, Json.asNumber, bind, Except.bind, h, pure, Except.pure]

theorem settled_number_of_whole {v : Num} {k : ℤ} (h : v.whole? = some k)
    (hk : k.natAbs ≤ Nat.pow 2 50) : number.Settled (.num v) := by
  obtain ⟨x, hx, hto⟩ := Num.toDouble_of_whole h hk
  have hread : Num.ofDouble x = .int k := by rw [Num.ofDouble, hto]
  have hplain : (Num.int k).plain = .ok (intDigits k) := Num.plain_of_whole rfl hk
  refine ⟨.num (.int k), hread ▸ describe_number hx, Json.noConfusion, ?_⟩
  rw [write_number, write_number, hplain, Num.plain_of_whole h hk]

theorem settled_number_of_fraction {x : Binary64} (h : x.toInt? = none) :
    number.Settled (.num (.double x)) := by
  have hread : Num.ofDouble x = .double x := by rw [Num.ofDouble, h]
  refine ⟨.num (.double x), ?_, Json.noConfusion, rfl⟩
  rw [describe_number (v := .double x) rfl, hread]

/-- Whether a format keeps a value: what can be shown as a text, whole numbers of moderate size, and
fractions that are not rounded. -/
def keeps : Format → Json → Bool
  | .quoted, v => v.isShort
  | f, .num v =>
    match v.whole? with
    | some k => k.natAbs ≤ Nat.pow 2 50
    | none => f = .number
  | _, _ => false

theorem settled_of_keeps {f : Format} {v : Json} (h : f.keeps v = true) : f.Settled v := by
  cases f with
  | quoted => exact settled_quoted h
  | rounded =>
    cases v with
    | num n =>
      cases hn : n.whole? with
      | none => simp [keeps, hn] at h
      | some k =>
        have hk : k.natAbs ≤ Nat.pow 2 50 := by simpa [keeps, hn] using h
        exact settled_rounded (Num.roundHalfUp_of_whole hn hk) hk
    | _ => exact absurd h (by simp [keeps])
  | number =>
    cases v with
    | num n =>
      cases hn : n.whole? with
      | none =>
        cases n with
        | int n => simp [Num.whole?] at hn
        | double x => exact settled_number_of_fraction hn
      | some k =>
        have hk : k.natAbs ≤ Nat.pow 2 50 := by simpa [keeps, hn] using h
        exact settled_number_of_whole hn hk
    | _ => exact absurd h (by simp [keeps])

end Format

/-! ## Props -/

/-- The stored numbers of an element are whole and of moderate size. -/
structure Element.Whole (e : Element) : Prop where
  x : e.x.IsWholeWithin (Nat.pow 2 50)
  y : e.y.IsWholeWithin (Nat.pow 2 50)
  w : e.w.IsWholeWithin (Nat.pow 2 50)
  h : e.h.IsWholeWithin (Nat.pow 2 50)
  props : ∀ spec ∈ SceneScript.propsOf e.type, ∀ v, e.storedProp? spec.key = some (.num v) →
    v.IsWholeWithin (Nat.pow 2 50)

/-- The numbers of a new element are whole, if those of its place and of its props are. -/
theorem Element.whole_ofType {t : ElementType} {id : String} {x y : Num}
    (hx : x.IsWholeWithin (Nat.pow 2 50)) (hy : y.IsWholeWithin (Nat.pow 2 50))
    (hprops : ∀ spec ∈ t.props, ∀ v ∈ (ofType t "" 0 0).storedProp? spec.key,
      spec.kind = .text ∨ Format.rounded.keeps v = true) : (ofType t id x y).Whole := by
  have hsize : t.defaultSize.1.IsWholeWithin (Nat.pow 2 50) ∧
      t.defaultSize.2.IsWholeWithin (Nat.pow 2 50) := by
    cases t <;> decide +kernel
  refine ⟨hx, hy, hsize.1, hsize.2, fun spec hspec v hv => ?_⟩
  have hspec' : spec ∈ t.props := by
    have htype : SceneScript.propsOf (ofType t id x y).type = t.props :=
      propsOf_eq (ElementType.ofName?_name t)
    exact htype ▸ hspec
  rcases hprops spec hspec' _ hv with htext | hkeeps
  · have hadmits := (created_props t).1 spec hspec' _ hv
    rw [htext] at hadmits
    obtain ⟨s, hs⟩ := PropKind.exists_of_admits_text hadmits
    simp at hs
  · cases hk : v.whole? with
    | none => simp [Format.keeps, hk] at hkeeps
    | some k => exact ⟨k, hk, by simpa [Format.keeps, hk] using hkeeps⟩

/-- What the table keeps of a prop that a shape writes: its format fits its kind, and its default is
kept by the format, unless it is computed from the element. -/
def Shape.KeepsProp (type : String) (p : String × Format) : Prop :=
  ∃ spec ∈ propSpec? type p.1, p.2.Fits spec.kind ∧
    (p.1 = "radius" ∧ (type = ElementType.circle.name ∨ type = ElementType.circleOutline.name) →
      p.2 = .rounded) ∧
    (p.1 = "var" ∧ type = ElementType.slider.name → p.2 = .quoted) ∧
    ((∃ v ∈ spec.default?, p.2.keeps v = true) ∨
      p.1 = "radius" ∧ (type = ElementType.circle.name ∨ type = ElementType.circleOutline.name) ∨
      p.1 = "var" ∧ type = ElementType.slider.name)

instance (type : String) (p : String × Format) : Decidable (Shape.KeepsProp type p) := by
  unfold Shape.KeepsProp
  exact inferInstance

theorem Shape.keepsProp_of_mem_written :
    ∀ s ∈ shapes, ∀ p ∈ s.written, KeepsProp s.type.name p := by
  decide +kernel

/-- Every prop that is written has a value in effect, which is written like what it is read back
as. -/
theorem Element.exists_settled {e : Element} (he : e.Readable) (hwhole : e.Whole) {s : Shape}
    (hshape : shapeOf? e.type = some s) {p : String × Format} (hp : p ∈ s.written) :
    ∃ v, e.resolveProp p.1 = .ok (some v) ∧ p.2.Settled v := by
  obtain ⟨hs, htype⟩ := shapeOf?_eq_some hshape
  obtain ⟨spec, hspec, hfits, hradius, hvar, hdefault⟩ := Shape.keepsProp_of_mem_written s hs p hp
  rw [htype] at hspec hradius hvar hdefault
  have hmem : spec ∈ SceneScript.propsOf e.type := List.mem_of_find?_eq_some hspec
  obtain hkey : spec.key = p.1 := by simpa using List.find?_some hspec
  unfold Element.resolveProp
  cases hstored : e.storedProp? p.1 with
  | some v =>
    refine ⟨v, rfl, ?_⟩
    rw [← hkey] at hstored
    have hadmits := he.props spec hmem v hstored
    by_cases hkind : spec.kind = .text
    · revert hfits
      cases p.2 with
      | quoted =>
        obtain ⟨s, rfl⟩ := PropKind.exists_of_admits_text (hkind ▸ hadmits)
        exact fun _ => Format.settled_quoted rfl
      | rounded => exact fun hfits => absurd hkind hfits
      | number => exact fun hfits => absurd hkind hfits
    · obtain ⟨n, rfl, -⟩ := PropKind.exists_of_admits_number hkind hadmits
      obtain ⟨k, hk, hle⟩ := hwhole.props spec hmem n hstored
      refine Format.settled_of_keeps ?_
      revert hfits
      cases p.2 with
      | quoted => exact fun hfits => absurd hfits hkind
      | rounded | number => exact fun _ => by simp [Format.keeps, hk, hle]
  | none =>
    dsimp only
    split
    · next hr =>
      obtain ⟨x, hx, -⟩ := Num.half_of_finite he.w
      obtain ⟨n, hn, hle⟩ := Num.roundHalfUp_half hwhole.w hx
      refine ⟨.num (.double x), by rw [hx]; rfl, ?_⟩
      rw [hradius hr]
      exact Format.settled_rounded hn hle
    · next hr =>
      split
      · next hv =>
        rw [hvar hv]
        exact ⟨_, rfl, Format.settled_quoted rfl⟩
      · next hv =>
        obtain ⟨v, hv', hkeeps⟩ := hdefault.resolve_right (not_or.2 ⟨hr, hv⟩)
        refine ⟨v, ?_, Format.settled_of_keeps hkeeps⟩
        rw [hspec]
        exact congrArg Except.ok hv'

/-! ## Elements told alike -/

/-- That an element is what a script tells of another: identity as it is, place and size rounded,
every prop that is written as it is read back, and the same handler. -/
structure Element.ToldAs (e e' : Element) : Prop where
  id : e'.id = e.id
  type : e'.type = e.type
  name : e'.name = e.name
  x : e.x.roundHalfUp.map Num.int = .ok e'.x
  y : e.y.roundHalfUp.map Num.int = .ok e'.y
  w : e.w.roundHalfUp.map Num.int = .ok e'.w
  h : e.h.roundHalfUp.map Num.int = .ok e'.h
  props : ∀ s, shapeOf? e.type = some s → ∀ p ∈ s.written,
    ∃ v, e.describedProp p.1 p.2 = .ok v ∧ e'.props.get? p.1 = some v
  handler : e'.handlerName? = e.handlerName?

/-- A whole number of moderate size, rounded, is itself. -/
theorem Num.IsWholeWithin.rounded {v v' : Num} (hv : v.IsWholeWithin (Nat.pow 2 50))
    (h : v.roundHalfUp.map Num.int = .ok v') :
    v.whole?.map Num.int = some v' ∧ v'.roundHalfUp = v.roundHalfUp := by
  obtain ⟨k, hk, hle⟩ := hv
  rw [roundHalfUp_of_whole hk hle] at h ⊢
  obtain rfl := Except.ok.inj h
  exact ⟨by rw [hk]; rfl, roundHalfUp_of_whole rfl hle⟩

namespace Element.ToldAs

variable {e e' : Element} (h : e.ToldAs e') (he : e.Readable) (hwhole : e.Whole)

include h he hwhole

/-- A prop that is written is written alike. -/
theorem write_prop {s : Shape} (hshape : shapeOf? e.type = some s) {p : String × Format}
    (hp : p ∈ s.written) : ∃ v v', e.resolveProp p.1 = .ok (some v) ∧
      e'.resolveProp p.1 = .ok (some v') ∧ p.2.describe v = .ok v' ∧
      Argument.write p.2 (some v') = Argument.write p.2 (some v) := by
  obtain ⟨v, hv, v', hdescribe, hnull, hwrite⟩ := exists_settled he hwhole hshape hp
  refine ⟨v, v', hv, ?_, hdescribe, hwrite⟩
  obtain ⟨u, hu, hget⟩ := h.props s hshape p hp
  obtain rfl : v' = u := by
    rw [describedProp, hv] at hu
    exact Except.ok.inj (hdescribe.symm.trans hu)
  have hstored : e'.storedProp? p.1 = some v' := by
    rw [storedProp?, hget]
    split
    · next hnone => exact absurd (Option.some.inj hnone) hnull
    · rfl
  rw [resolveProp, hstored]

/-- The size is written alike. -/
theorem write_size :
    Argument.write .rounded (some (.num e'.w)) = Argument.write .rounded (some (.num e.w)) ∧
      Argument.write .rounded (some (.num e'.h)) = Argument.write .rounded (some (.num e.h)) := by
  obtain ⟨f, hf⟩ := he.exists_roundsTo
  have hw := (hwhole.w.rounded h.w).2.trans hf.w
  have hh := (hwhole.h.rounded h.h).2.trans hf.h
  exact ⟨(Format.write_rounded hw).trans (Format.write_rounded hf.w).symm,
    (Format.write_rounded hh).trans (Format.write_rounded hf.h).symm⟩

/-- An argument is written alike. -/
theorem render {s : Shape} (hshape : shapeOf? e.type = some s) (hform : s.form ≠ .slider)
    {a : Argument} (ha : a ∈ s.arguments) : a.render e' = a.render e := by
  obtain ⟨hs, htype⟩ := shapeOf?_eq_some hshape
  have hsupported := (wellFormed_of_mem_shapes s hs).supported a ha
  obtain ⟨hw, hh⟩ := h.write_size he hwhole
  unfold Argument.Supported at hsupported
  cases hsource : a.source with
  | width =>
    rw [hsource] at hsupported
    rw [Argument.render, Argument.render, Argument.value, Argument.value, hsource, hsupported]
    exact hw
  | height =>
    rw [hsource] at hsupported
    rw [Argument.render, Argument.render, Argument.value, Argument.value, hsource, hsupported]
    exact hh
  | prop key =>
    have hwritten : (key, a.format) ∈ s.written := by
      rw [Shape.written, if_neg hform]
      exact List.mem_filterMap.2 ⟨a, ha, by rw [Argument.written?, hsource]⟩
    obtain ⟨v, v', hv, hv', -, hwrite⟩ := h.write_prop he hwhole hshape hwritten
    rw [Argument.render, Argument.render, Argument.value, Argument.value, hsource]
    dsimp only at hv hv' hwrite ⊢
    rw [hv, hv']
    exact hwrite

/-- The statements are the same. -/
theorem statements_eq : e'.statements = e.statements := by
  obtain ⟨s, hshape⟩ := he.shape
  have hhandler : Shape.handlerText e' = Shape.handlerText e := by
    rw [Shape.handlerText, Shape.handlerText, h.handler]
  rw [statements, statements, h.type, hshape]
  dsimp only
  have harguments : s.form ≠ .slider →
      s.arguments.mapM (fun a => a.render e') = s.arguments.mapM fun a => a.render e :=
    fun hform => mapM_congr_of_forall₂
      (List.forall₂_same.2 fun a ha => h.render he hwhole hshape hform ha)
  rw [Shape.build, Shape.build]
  cases hform : s.form with
  | comment => rfl
  | call =>
    dsimp only
    rw [harguments (by simp [hform])]
  | conditional =>
    dsimp only
    rw [harguments (by simp [hform]), hhandler]
  | slider =>
    have hwritten : s.written = [("var", .quoted), ("min", .number), ("max", .number)] := by
      rw [Shape.written, if_pos hform]
    obtain ⟨v, v', hv, hv', hvar, -⟩ := h.write_prop he hwhole hshape
      (p := ("var", .quoted)) (by simp [hwritten])
    have hnumber : ∀ key, (key, Format.number) ∈ s.written →
        Shape.numberProp e' key = Shape.numberProp e key := by
      intro key hkey
      obtain ⟨u, u', hu, hu', -, hwrite⟩ := h.write_prop he hwhole hshape hkey
      rw [Shape.numberProp, Shape.numberProp, Argument.render, Argument.render, Argument.value,
        Argument.value]
      dsimp only at hu hu' hwrite ⊢
      rw [hu, hu']
      exact hwrite
    obtain ⟨var, htext, rfl⟩ := map_eq_ok.1 hvar
    dsimp only at hv hv' ⊢
    rw [Shape.buildSlider, Shape.buildSlider, hnumber "min" (by simp [hwritten]),
      hnumber "max" (by simp [hwritten]), hhandler, hv, hv']
    have htext' : (Json.str var).text = .ok var := rfl
    simp only [bind, Except.bind, Option.getD_some, htext, htext']

/-- An element that was read back is written as the same block. -/
theorem block_eq (indent : List Char) : e'.block indent = e.block indent := by
  have hmarker : Marker.line e' = Marker.line e := by
    rw [Marker.line, Marker.line, (hwhole.w.rounded h.w).2, (hwhole.h.rounded h.h).2, h.id, h.name,
      h.type]
  have hmove : e'.moveLine = e.moveLine := by
    rw [moveLine, moveLine, (hwhole.x.rounded h.x).2, (hwhole.y.rounded h.y).2]
  rw [block, block, hmarker, hmove, h.statements_eq he hwhole]

end Element.ToldAs

/-! ## Elements of candidates -/

/-- The handler of a type that has one. -/
theorem Element.handlerName?_eq {e : Element} {s : Shape} {k : HandlerKey}
    (hshape : shapeOf? e.type = some s) (hk : s.handler? = some k) :
    e.handlerName? = some (match e.props.get? k.key with
      | some (.str name) =>
        if (trim name.toList).isEmpty then k.derivedName e.name.toList else trim name.toList
      | _ => k.derivedName e.name.toList) := by
  unfold handlerName?
  rw [hshape]
  simp only [Option.bind_eq_bind, Option.bind_some, hk]
  generalize e.props.get? k.key = stored
  cases stored with
  | none => rfl
  | some v => cases v <;> rfl

section Candidates

variable {e : Element} {c : Candidate} (he : e.Readable) (hc : e.DescribedBy c) {s : Shape}
  (hshape : shapeOf? e.type = some s)

include hc hshape

/-- The props of a candidate are those that are written, and the handler. -/
theorem Element.DescribedBy.exists_entries :
    ∃ entries, List.Forall₂ (fun p q => e.describedEntry p = .ok q) s.written entries ∧
      c.props.entries = entries ++ e.describedHandler := by
  have hprops := hc.props
  rw [describedProps, hshape] at hprops
  obtain ⟨entries, hentries, hsplit⟩ := bind_eq_ok.1 hprops
  exact ⟨entries, mapM_eq_ok_iff.1 hentries, (Except.ok.inj hsplit).symm⟩

/-- A candidate has every prop that is written. -/
theorem Element.DescribedBy.get?_written {p : String × Format} (hp : p ∈ s.written) :
    ∃ v, e.describedProp p.1 p.2 = .ok v ∧ c.props.get? p.1 = some v := by
  obtain ⟨entries, hall, hprops⟩ := hc.exists_entries hshape
  obtain ⟨q, hq, hentry⟩ := exists_of_mem_left hall hp
  obtain ⟨v, hv, heq⟩ := bind_eq_ok.1 hentry
  obtain rfl := Except.ok.inj heq
  refine ⟨v, hv, Table.get?_eq_some_iff.2 ?_⟩
  rw [hprops]
  exact List.mem_append_left _ hq

/-- A candidate has a handler unless it is the one made from the name. -/
theorem Element.DescribedBy.get?_handler {k : HandlerKey} (hk : s.handler? = some k)
    {name : List Char} (hname : e.handlerName? = some name) :
    c.props.get? k.key = if k.derivedName e.name.toList = name then none
      else some (.str (String.ofList name)) := by
  obtain ⟨entries, hall, hprops⟩ := hc.exists_entries hshape
  have hdescribed : e.describedHandler = if k.derivedName e.name.toList = name then []
      else [(k.key, .str (String.ofList name))] := by
    rw [describedHandler, hshape, Option.bind_some, hk, hname]
  split
  · next hderived =>
    have hkeys := (wellFormed_of_mem_shapes s (shapeOf?_eq_some hshape).1).keys
    rw [hk, List.nodup_append] at hkeys
    rw [hdescribed, if_pos hderived, List.append_nil] at hprops
    refine Table.get?_eq_none_iff.2 fun hmem => ?_
    obtain ⟨q, hq, hkey⟩ := List.mem_map.1 hmem
    rw [hprops] at hq
    obtain ⟨p, hp, hentry⟩ := exists_of_mem_right hall hq
    obtain ⟨v, -, heq⟩ := bind_eq_ok.1 hentry
    obtain rfl := Except.ok.inj heq
    exact hkeys.2.2 p.1 (List.mem_map_of_mem hp) k.key (by simp) hkey
  · next hderived =>
    refine Table.get?_eq_some_iff.2 ?_
    rw [hprops, hdescribed, if_neg hderived]
    exact List.mem_append_right _ List.mem_cons_self

variable {k : HandlerKey} (hk : s.handler? = some k)

include he hk

/-- An element with the handler of a candidate, or with the one that it had before, calls the
handler that the candidate was read from. -/
theorem Element.DescribedBy.handlerName?_eq {e' : Element} (htype : e'.type = e.type)
    (hname : e'.name = e.name) (hprops : e'.props.get? k.key = c.props.get? k.key ∨
      c.props.get? k.key = none ∧ e'.props.get? k.key = e.props.get? k.key) :
    e'.handlerName? = e.handlerName? := by
  obtain ⟨name, hhandler, hcallee⟩ := he.handlerName hshape hk
  have hget := hc.get?_handler hshape hk hhandler
  have hshape' : shapeOf? e'.type = some s := htype ▸ hshape
  rw [Element.handlerName?_eq hshape' hk, hname]
  rcases hprops with hprops | ⟨-, hprops⟩
  · rw [hprops, hget, hhandler]
    split_ifs with hderived
    · rw [← hderived]
    · obtain ⟨hne, hplain⟩ := isNameChar_of_isCallee hcallee
      have htrim : trim (String.ofList name).toList = name := by
        rw [String.toList_ofList]
        exact (tight_of_name hne hplain).trim
      dsimp only
      rw [htrim, if_neg (by simpa using hne)]
  · rw [hprops, Element.handlerName?_eq hshape hk]

end Candidates

namespace Element.DescribedBy

variable {e : Element} {c : Candidate} (he : e.Readable) (hc : e.DescribedBy c)

include he hc

theorem toldAs_of_props {e' : Element} (hid : e'.id = e.id) (htype : e'.type = c.type)
    (hname : e'.name = e.name) (hframe : e'.x = c.x ∧ e'.y = c.y ∧ e'.w = c.w ∧ e'.h = c.h)
    (hprops : ∀ key v, c.props.get? key = some v → e'.props.get? key = some v)
    (hhandler : ∀ s k, shapeOf? e.type = some s → s.handler? = some k →
      c.props.get? k.key = none → e'.props.get? k.key = none ∨
        e'.props.get? k.key = e.props.get? k.key) : e.ToldAs e' := by
  obtain ⟨hx, hy, hw, hh⟩ := hframe
  have htype' : e'.type = e.type := htype.trans hc.type
  refine ⟨hid, htype', hname, hx ▸ hc.x, hy ▸ hc.y, hw ▸ hc.w, hh ▸ hc.h,
    fun s hshape p hp => ?_, ?_⟩
  · obtain ⟨v, hv, hget⟩ := hc.get?_written hshape hp
    exact ⟨v, hv, hprops p.1 v hget⟩
  · obtain ⟨s, hshape⟩ := he.shape
    cases hk : s.handler? with
    | none =>
      have hnone : ∀ {e : Element}, shapeOf? e.type = some s → e.handlerName? = none := by
        intro e hshape
        simp [handlerName?, hshape, hk]
      rw [hnone hshape, hnone (htype' ▸ hshape)]
    | some k =>
      refine handlerName?_eq he hc hshape hk htype' hname ?_
      cases hget : c.props.get? k.key with
      | some v => exact .inl (hprops k.key v hget)
      | none => exact (hhandler s k hshape hk hget).imp_right fun h => ⟨rfl, h⟩

theorem name_nonemptyOr (second : String) : nonemptyOr c.name? second = e.name := by
  have hne : e.name.isEmpty = false := by
    rw [Bool.eq_false_iff, Ne, String.isEmpty_iff]
    exact fun hempty => he.name_ne (by rw [hempty]; rfl)
  rw [hc.name?, nonemptyOr]
  exact if_neg (by simp [hne])

/-- An element updated by the candidate that describes it is told as before. -/
theorem toldAs_update : e.ToldAs (c.update e) := by
  refine hc.toldAs_of_props he rfl rfl (hc.name_nonemptyOr he e.name) ⟨rfl, rfl, rfl, rfl⟩
    (fun key v hget => ?_) fun s k hshape hk hget => .inr ?_
  · rw [Candidate.update, mergeProps, Table.get?_merge, hget]
    rfl
  · obtain ⟨hs, htype⟩ := shapeOf?_eq_some hshape
    obtain ⟨spec, hspec, -⟩ := (Shape.creatable_of_mem_shapes s hs).2 k hk
    rw [Candidate.update, mergeProps, Table.get?_merge, hget, Option.none_or]
    refine Table.get?_filter fun v => ?_
    rw [hc.type, ← htype, hspec]
    rfl

/-- A new element of the candidate is told as the one that it describes. -/
theorem toldAs_create : e.ToldAs (c.create e.id) :=
  hc.toldAs_of_props he rfl rfl (hc.name_nonemptyOr he _) ⟨rfl, rfl, rfl, rfl⟩
    (fun _ _ hget => hget) fun _ _ _ _ hget => .inl hget

end Element.DescribedBy

end SceneScript
