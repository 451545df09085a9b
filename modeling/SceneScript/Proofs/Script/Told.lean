import SceneScript.Proofs.Script.Handler

/-!
# What a statement tells of its element

The arguments of a call stand at places that its shape fixes (`Shape.position?`). What stands at the
place of a size or of a prop is read (`Shape.told?`); where nothing stands, or nothing that can be
read, a prop and a size have the defaults of the type. A handler changes none of this.

Main statement: a candidate has what its statement tells, and the defaults for the rest
(`Candidate.fills_ofCall`).
-/

namespace SceneScript

/-! ## Fields -/

/-- What fields say about what an argument is taken from. -/
def Fields.at? (fields : Fields) : Source → Option Json
  | .width => fields.w?.map .num
  | .height => fields.h?.map .num
  | .prop key => fields.props.get? key

/-- What fields say about it once a value was read for it, or none: a size is a number, and a prop
has its default otherwise. -/
def Source.kept? (type : String) (value? : Option Json) : Source → Option Json
  | .prop key => value?.or ((propSpec? type key).bind PropSpec.default?)
  | _ => (value?.bind Shape.number?).map .num

namespace Shape

variable {type : String} {bindings : Lua.Bindings} {fields : Fields} {source : Source}

theorem at?_addArgument_of_ne {a : Argument} (h : a.source ≠ source) (value? : Option Json) :
    (addArgument type fields a value?).at? source = fields.at? source := by
  unfold addArgument
  cases hs : a.source with
  | width =>
    rw [hs] at h
    cases source with
    | width => exact absurd rfl h
    | height => dsimp only; split <;> rfl
    | prop key => dsimp only; split <;> rfl
  | height =>
    rw [hs] at h
    cases source with
    | width => dsimp only; split <;> rfl
    | height => exact absurd rfl h
    | prop key => dsimp only; split <;> rfl
  | prop key =>
    rw [hs] at h
    cases source with
    | width => dsimp only; split <;> rfl
    | height => dsimp only; split <;> rfl
    | prop key' =>
      have hne : key ≠ key' := fun heq => h (congrArg Source.prop heq)
      dsimp only
      split
      · exact Table.get?_insert_of_ne _ _ hne.symm
      · rfl

theorem at?_addArgument_self {a : Argument} (h : fields.at? a.source = none)
    (value? : Option Json) :
    (addArgument type fields a value?).at? a.source = a.source.kept? type value? := by
  unfold addArgument
  cases hs : a.source with
  | width =>
    rw [hs] at h
    dsimp only [Source.kept?]
    cases value?.bind number? with
    | some v => rfl
    | none => exact h
  | height =>
    rw [hs] at h
    dsimp only [Source.kept?]
    cases value?.bind number? with
    | some v => rfl
    | none => exact h
  | prop key =>
    rw [hs] at h
    dsimp only [Source.kept?]
    cases value?.or ((propSpec? type key).bind PropSpec.default?) with
    | some v => exact Table.get?_insert_self ..
    | none => exact h

/-- Arguments are added one by one, each with the token that stands for it, if one does. -/
theorem addArguments_cons (fields : Fields) (a : Argument) (args : List Argument)
    (tokens : List (List Char)) :
    addArguments type bindings fields (a :: args) tokens =
      addArguments type bindings
        (addArgument type fields a (tokens[0]?.bind (argumentValue? a.format bindings))) args
        tokens.tail := by
  cases tokens <;> rfl

theorem at?_addArguments_of_notMem {args : List Argument}
    (h : source ∉ args.map Argument.source) (tokens : List (List Char)) :
    (addArguments type bindings fields args tokens).at? source = fields.at? source := by
  induction args generalizing fields tokens with
  | nil => rfl
  | cons a args ih =>
    rw [List.map_cons, List.mem_cons, not_or] at h
    rw [addArguments_cons, ih h.2, at?_addArgument_of_ne (Ne.symm h.1)]

/-- Of arguments taken from different sources each one is kept. -/
theorem at?_addArguments {args : List Argument} (hn : (args.map Argument.source).Nodup) {i : ℕ}
    {a : Argument} (ha : args[i]? = some a) (h : fields.at? a.source = none)
    (tokens : List (List Char)) :
    (addArguments type bindings fields args tokens).at? a.source =
      a.source.kept? type (tokens[i]?.bind (argumentValue? a.format bindings)) := by
  induction args generalizing fields tokens i with
  | nil => cases ha
  | cons b args ih =>
    rw [List.map_cons, List.nodup_cons] at hn
    rw [addArguments_cons]
    cases i with
    | zero =>
      obtain rfl : b = a := Option.some.inj ha
      rw [at?_addArguments_of_notMem hn.1, at?_addArgument_self h]
    | succ i =>
      have hne : b.source ≠ a.source := fun heq =>
        hn.1 (heq ▸ List.mem_map_of_mem (List.mem_of_getElem? ha))
      rw [ih hn.2 ha ((at?_addArgument_of_ne hne _).trans h), List.getElem?_tail]

/-! ## Places of arguments -/

/-- Where the argument for a size or a prop stands in a call, and how it is written. -/
def position? (s : Shape) (source : Source) : Option (ℕ × Format) :=
  if s.form = .slider then
    if source = .prop "min" then some (3, .number)
    else if source = .prop "max" then some (4, .number)
    else none
  else
    let i := (s.arguments.map Argument.source).idxOf source
    s.arguments[i]?.map fun a => (s.literals.length + i, a.format)

/-- What a call tells of a size or of a prop, if it tells anything. -/
def told? (s : Shape) (bindings : Lua.Bindings) (call : Call) (source : Source) : Option Json :=
  (s.position? source).bind fun p => call.arguments[p.1]?.bind (argumentValue? p.2 bindings)

/-- The size that a call tells: twice the radius, where the shape has one. -/
def toldSize? (s : Shape) (bindings : Lua.Bindings) (call : Call) (source : Source) : Option Num :=
  match s.radius? with
  | some key => ((s.told? bindings call (.prop key)).bind number?).map Num.twice
  | none => (s.told? bindings call source).bind number?

/-- The arguments of a shape are taken from different sources, every prop with a default is one of
them and no handler, and a radius is one without a default, which stands for the sizes. -/
structure Covers (s : Shape) : Prop where
  nodup : (s.arguments.map Argument.source).Nodup
  defaulted : ∀ spec ∈ s.type.props, spec.default?.isSome = true →
    if s.form = .slider then spec.key ∈ ["min", "max"]
    else Source.prop spec.key ∈ s.arguments.map Argument.source
  unhandled : ∀ spec ∈ s.type.props, spec.default?.isSome = true →
    ∀ k ∈ [HandlerKey.onPress, HandlerKey.onChange], spec.key ≠ k.key
  radius : ∀ key ∈ s.radius?, s.form ≠ .slider ∧
    Source.prop key ∈ s.arguments.map Argument.source ∧
    ((propSpec? s.type.name key).bind PropSpec.default?).isSome = false ∧
    Source.width ∉ s.arguments.map Argument.source ∧
    Source.height ∉ s.arguments.map Argument.source

instance (s : Shape) : Decidable s.Covers :=
  decidable_of_iff (_ ∧ _ ∧ _ ∧ _)
    ⟨fun ⟨h₁, h₂, h₃, h₄⟩ => ⟨h₁, h₂, h₃, h₄⟩, fun ⟨h₁, h₂, h₃, h₄⟩ => ⟨h₁, h₂, h₃, h₄⟩⟩

theorem covers_of_mem_shapes : ∀ s ∈ shapes, s.Covers := by
  decide +kernel

/-! ## What is extracted -/

variable {s : Shape} {call : Call}

theorem position?_of_notMem (hform : s.form ≠ .slider)
    (h : source ∉ s.arguments.map Argument.source) : s.position? source = none := by
  have hlength : (s.arguments.map Argument.source).idxOf source = s.arguments.length := by
    rw [List.idxOf_of_notMem h, List.length_map]
  rw [position?, if_neg hform, hlength]
  dsimp only
  rw [List.getElem?_eq_none le_rfl]
  rfl

/-- A source among those of a shape is the one of the argument at its place. -/
theorem exists_position? (hform : s.form ≠ .slider)
    (h : source ∈ s.arguments.map Argument.source) :
    ∃ i a, s.arguments[i]? = some a ∧ a.source = source ∧
      s.position? source = some (s.literals.length + i, a.format) := by
  have hlt : (s.arguments.map Argument.source).idxOf source < s.arguments.length := by
    rw [← List.length_map (f := Argument.source)]
    exact List.idxOf_lt_length_of_mem h
  refine ⟨_, _, List.getElem?_eq_getElem hlt, ?_, ?_⟩
  · have := List.getElem_idxOf (List.idxOf_lt_length_of_mem h)
    rwa [List.getElem_map] at this
  · rw [position?, if_neg hform]
    dsimp only
    rw [List.getElem?_eq_getElem hlt]
    rfl

/-- The fields of a call, without the size that follows from a radius. -/
def argumentFields (s : Shape) (bindings : Lua.Bindings) (call : Call) : Fields :=
  addArguments s.type.name bindings ⟨Table.empty, none, none, call.handler?⟩ s.arguments
    (call.arguments.drop s.literals.length)

theorem at?_start (handler? : Option (List Char)) (source : Source) :
    (⟨Table.empty, none, none, handler?⟩ : Fields).at? source = none := by
  cases source <;> rfl

theorem at?_argumentFields_of_notMem (h : source ∉ s.arguments.map Argument.source) :
    (s.argumentFields bindings call).at? source = none := by
  rw [argumentFields, at?_addArguments_of_notMem h, at?_start]

/-- The argument of a source gives what a call tells of it. -/
theorem at?_argumentFields (hs : s ∈ shapes) (hform : s.form ≠ .slider)
    (h : source ∈ s.arguments.map Argument.source) :
    (s.argumentFields bindings call).at? source =
      source.kept? s.type.name (s.told? bindings call source) := by
  obtain ⟨i, a, ha, rfl, hposition⟩ := exists_position? hform h
  rw [argumentFields, at?_addArguments (covers_of_mem_shapes s hs).nodup ha (at?_start ..), told?,
    hposition, List.getElem?_drop]
  rfl

theorem extract_of_ne_slider (hform : s.form ≠ .slider) :
    s.extract bindings call = s.addDiameter (s.argumentFields bindings call) := by
  rw [extract, if_neg hform]
  rfl

/-- A size is the one that the call tells. -/
theorem at?_extract_size (hs : s ∈ shapes) (h : source ∈ [Source.width, Source.height]) :
    (s.extract bindings call).at? source = (s.toldSize? bindings call source).map .num := by
  have hkept : ∀ {type : String} {value? : Option Json},
      source.kept? type value? = (value?.bind number?).map .num := by
    intro type value?
    rcases List.mem_pair.1 h with rfl | rfl <;> rfl
  have hcovers := covers_of_mem_shapes s hs
  by_cases hform : s.form = .slider
  · have hradius : s.radius? = none :=
      Option.eq_none_iff_forall_not_mem.2 fun key hkey => (hcovers.radius key hkey).1 hform
    have hposition : s.position? source = none := by
      rw [position?, if_pos hform]
      rcases List.mem_pair.1 h with rfl | rfl <;> rfl
    rw [extract, if_pos hform, toldSize?, hradius]
    dsimp only
    rw [told?, hposition]
    rcases List.mem_pair.1 h with rfl | rfl <;> rfl
  · rw [extract_of_ne_slider hform, addDiameter, toldSize?]
    cases hradius : s.radius? with
    | none =>
      dsimp only [Option.bind_none]
      by_cases hmem : source ∈ s.arguments.map Argument.source
      · rw [at?_argumentFields hs hform hmem, hkept]
      · rw [at?_argumentFields_of_notMem hmem, told?, position?_of_notMem hform hmem]
        rfl
    | some key =>
      obtain ⟨-, hmem, hdefault, hwidth, hheight⟩ := hcovers.radius key hradius
      have hnone : (propSpec? s.type.name key).bind PropSpec.default? = none := by
        simpa using hdefault
      have hprop : (s.argumentFields bindings call).props.get? key =
          s.told? bindings call (.prop key) := by
        have : (s.argumentFields bindings call).at? (.prop key) = _ :=
          at?_argumentFields hs hform hmem
        rw [Source.kept?, hnone, Option.or_none] at this
        exact this
      dsimp only [Option.bind_some]
      rw [hprop]
      cases (s.told? bindings call (.prop key)).bind number? with
      | some r => rcases List.mem_pair.1 h with rfl | rfl <;> rfl
      | none =>
        rcases List.mem_pair.1 h with rfl | rfl
        · exact at?_argumentFields_of_notMem hwidth
        · exact at?_argumentFields_of_notMem hheight

/-- A bound of a slider is kept under its key. -/
theorem get?_extractSlider {key : String} {i : ℕ} (h : (key, i) ∈ [("min", 3), ("max", 4)])
    {v : Json} (hv : s.sliderBound bindings call key i = some v) :
    (s.extractSlider bindings call).props.get? key = some v := by
  refine Table.get?_eq_some_iff.2 ?_
  change _ ∈ Entries.ofList _
  rw [Entries.ofList_of_nodup ?_]
  · rcases List.mem_pair.1 h with heq | heq <;> obtain ⟨rfl, rfl⟩ := Prod.mk.inj heq <;> simp [hv]
  · cases call.targets.head? <;> cases s.sliderBound bindings call "min" 3 <;>
      cases s.sliderBound bindings call "max" 4 <;> simp [Entries.keys]

theorem exists_spec_of_default {key : String} {d : Json}
    (hd : (propSpec? s.type.name key).bind PropSpec.default? = some d) :
    ∃ spec ∈ s.type.props, spec.key = key ∧ spec.default? = some d := by
  obtain ⟨spec, hspec, hdefault⟩ := Option.bind_eq_some_iff.1 hd
  obtain ⟨t, ht, hmem, hkey⟩ := mem_of_propSpec? hspec
  rw [ElementType.ofName?_name] at ht
  exact ⟨spec, (Option.some.inj ht) ▸ hmem, hkey, hdefault⟩

/-- A prop with a default is what the call tells, or else the default. -/
theorem get?_extract (hs : s ∈ shapes) {key : String} {d : Json}
    (hd : (propSpec? s.type.name key).bind PropSpec.default? = some d) :
    (s.extract bindings call).props.get? key =
      some ((s.told? bindings call (.prop key)).getD d) := by
  obtain ⟨spec, hmem, rfl, hdefault⟩ := exists_spec_of_default hd
  have hplace := (covers_of_mem_shapes s hs).defaulted spec hmem (by rw [hdefault]; rfl)
  have hor : ∀ {told? : Option Json}, told?.or (some d) = some (told?.getD d) := by
    intro told?
    cases told? <;> rfl
  by_cases hform : s.form = .slider
  · obtain ⟨i, hi, hposition⟩ : ∃ i, (spec.key, i) ∈ [("min", 3), ("max", 4)] ∧
        s.position? (.prop spec.key) = some (i, .number) := by
      rw [if_pos hform] at hplace
      rw [position?, if_pos hform]
      rcases List.mem_pair.1 hplace with hkey | hkey <;> rw [hkey]
      · exact ⟨3, by simp, rfl⟩
      · exact ⟨4, by simp, rfl⟩
    rw [extract, if_pos hform, get?_extractSlider hi]
    rw [sliderBound, hd, hor, told?, hposition, Option.map_bind]
    rfl
  · rw [if_neg hform] at hplace
    rw [extract_of_ne_slider hform, props_addDiameter]
    have : (s.argumentFields bindings call).at? (.prop spec.key) = _ :=
      at?_argumentFields hs hform hplace
    rw [Source.kept?, hd, hor] at this
    exact this

end Shape

/-! ## Candidates -/

namespace Candidate

/-- That a candidate is of the type of a shape and has what a call of it tells: a prop with a
default is what the call tells, or else the default, and a size is the one of a marker, or else what
the call tells, or else the default of the type. -/
structure Fills (bindings : Lua.Bindings) (shape : Shape) (call : Call) (c : Candidate) : Prop where
  type : c.type = shape.type.name
  props : ∀ key d, (propSpec? shape.type.name key).bind PropSpec.default? = some d →
    c.props.get? key = some ((shape.told? bindings call (.prop key)).getD d)
  size : ∃ marker? : Option Marker,
    c.w = ((markerSize marker? Marker.w?).or (shape.toldSize? bindings call .width)).getD
      shape.type.defaultSize.1 ∧
    c.h = ((markerSize marker? Marker.h?).or (shape.toldSize? bindings call .height)).getD
      shape.type.defaultSize.2

variable {bindings : Lua.Bindings} {shape : Shape} {call : Call}

/-- A handler stands under a prop without a default. -/
theorem Fills.withHandler {c : Candidate} (hs : shape ∈ shapes) (h : c.Fills bindings shape call)
    (other : Shape) (handler? : Option (List Char)) :
    (c.withHandler other handler?).Fills bindings shape call := by
  unfold Candidate.withHandler
  split
  · next k handler _ =>
    split
    · exact h
    · refine ⟨h.type, fun key d hd => ?_, h.size⟩
      obtain ⟨spec, hmem, rfl, hdefault⟩ := Shape.exists_spec_of_default hd
      have hne := (Shape.covers_of_mem_shapes shape hs).unhandled spec hmem
        (by rw [hdefault]; rfl) k (by cases k <;> simp)
      rw [Table.get?_insert_of_ne _ _ hne]
      exact h.props spec.key d hd
  · exact h

/-- A candidate has what its statement tells, and the defaults for the rest. -/
theorem fills_ofCall (hs : shape ∈ shapes) (bindings : Lua.Bindings) (call : Call)
    (marker? : Option Marker) (x y : Num) (line : ℕ) :
    (ofCall bindings shape call marker? x y line).Fills bindings shape call := by
  have hsize : ∀ source ∈ [Source.width, Source.height],
      (shape.extract bindings call).at? source = (shape.toldSize? bindings call source).map .num :=
    fun source hsource => Shape.at?_extract_size hs hsource
  have hw := Option.map_injective (fun _ _ => Json.num.inj) (hsize .width (by simp))
  have hh := Option.map_injective (fun _ _ => Json.num.inj) (hsize .height (by simp))
  refine Fills.withHandler hs ⟨rfl, fun key d hd => Shape.get?_extract hs hd, marker?, ?_, ?_⟩ _ _
  · rw [← hw]
    rfl
  · rw [← hh]
    rfl

end Candidate

end SceneScript
