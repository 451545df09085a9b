import SceneScript.Proofs.Script.Argument
import SceneScript.Proofs.Table

/-!
# The table of shapes

What the table of shapes keeps: its types and its functions are distinct, its functions are names of
letters, and every argument stands for a value of its format that readable elements have
(`Argument.Supported`). The facts are decided over the table once; nothing later looks into it.

`Element.describedProps` says what a script tells about the props of an element: the values of the
arguments in their formats, and the handler unless it is the one made from the name.

Main statement: the arguments of a readable element are written, and reading them puts the described
values into the fields (`Shape.addArguments_of_readable`).
-/

namespace SceneScript

open Lua

/-! ## Facts about the table -/

/-- An argument whose value every readable element of a type has, in a fitting format. -/
def Argument.Supported (type : String) (a : Argument) : Prop :=
  match a.source with
  | .prop key => ∃ spec ∈ propSpec? type key, a.format.Fits spec.kind ∧
      (spec.default?.isSome = true ∨ key = "radius" ∧
        (type = ElementType.circle.name ∨ type = ElementType.circleOutline.name))
  | _ => a.format = .rounded

instance (type : String) (a : Argument) : Decidable (a.Supported type) := by
  unfold Argument.Supported
  cases a.source <;> exact inferInstance

/-- The prop that an argument writes, with its format. -/
def Argument.written? (a : Argument) : Option (String × Format) :=
  match a.source with
  | .prop key => some (key, a.format)
  | _ => none

/-- The props that a shape takes from an element, with their formats. -/
def Shape.written (s : Shape) : List (String × Format) :=
  if s.form = .slider then [("var", .quoted), ("min", .number), ("max", .number)]
  else s.arguments.filterMap Argument.written?

/-- What the table keeps of each shape. -/
structure Shape.WellFormed (s : Shape) : Prop where
  supported : ∀ a ∈ s.arguments, a.Supported s.type.name
  letters : ∀ c ∈ s.function.toList, c.isAlpha = true
  initial : s.function.toList.head? = some 'U'
  not_push : ¬"UiPush".toList <+: s.function.toList
  not_pop : ¬"UiPop".toList <+: s.function.toList
  not_move : s.function ≠ "UiTranslate"
  literals : s.literals = [] ∨ s.literals = ["1"]
  /-- No prop is written twice, and the handler is none of them. -/
  keys : (s.written.map Prod.fst ++ (s.handler?.map HandlerKey.key).toList).Nodup
  /-- Conditions and sliders are what calls a handler. -/
  handler : s.handler?.isSome = (s.form = .conditional || s.form = .slider)
  slider : s.form = .slider → s.type = .slider
  comment : s.form = .comment → s.arguments = []

instance (s : Shape) : Decidable s.WellFormed :=
  decidable_of_iff (_ ∧ _ ∧ _ ∧ _ ∧ _ ∧ _ ∧ _ ∧ _ ∧ _ ∧ _ ∧ _)
    ⟨fun ⟨h₁, h₂, h₃, h₄, h₅, h₆, h₇, h₈, h₉, h₁₀, h₁₁⟩ =>
        ⟨h₁, h₂, h₃, h₄, h₅, h₆, h₇, h₈, h₉, h₁₀, h₁₁⟩,
      fun ⟨h₁, h₂, h₃, h₄, h₅, h₆, h₇, h₈, h₉, h₁₀, h₁₁⟩ =>
        ⟨h₁, h₂, h₃, h₄, h₅, h₆, h₇, h₈, h₉, h₁₀, h₁₁⟩⟩

theorem wellFormed_of_mem_shapes : ∀ s ∈ shapes, s.WellFormed := by
  decide +kernel

theorem nodup_functions : (shapes.map Shape.function).Nodup := by
  decide +kernel

/-- Every type that can be created has a shape. -/
theorem isSome_shapeOf? (t : ElementType) (h : t.isCreatable = true) :
    (shapeOf? t.name).isSome = true := by
  cases t <;> first | decide +kernel | exact absurd h (by decide)

theorem shapeOf?_eq_some {type : String} {s : Shape} (h : shapeOf? type = some s) :
    s ∈ shapes ∧ s.type.name = type :=
  ⟨List.mem_of_find?_eq_some h, by simpa using List.find?_some h⟩

theorem Element.Readable.shape {e : Element} (h : e.Readable) : ∃ s, shapeOf? e.type = some s := by
  obtain ⟨t, ht, hc⟩ := h.type
  rw [← ElementType.name_of_ofName? ht]
  exact Option.isSome_iff_exists.1 (isSome_shapeOf? t hc)

/-! ## Described props -/

namespace Element

/-- What a script tells about the value of a prop that it writes in a format. -/
def describedProp (e : Element) (key : String) (format : Format) : Except NumberError Json := do
  match ← e.resolveProp key with
  | some v => format.describe v
  | none => return .null

/-- The handler that a script tells: none for a type without, and none when it is made from the
name. -/
def describedHandler (e : Element) : List (String × Json) :=
  match (shapeOf? e.type).bind Shape.handler?, e.handlerName? with
  | some k, some name =>
    if k.derivedName e.name.toList = name then [] else [(k.key, .str (String.ofList name))]
  | _, _ => []

/-- A prop that a script tells, with its value. -/
def describedEntry (e : Element) (p : String × Format) : Except NumberError (String × Json) := do
  return (p.1, ← e.describedProp p.1 p.2)

/-- The props that a script tells, in order. -/
def describedProps (e : Element) : Except NumberError (List (String × Json)) :=
  match shapeOf? e.type with
  | none => .ok []
  | some s => do
    let props ← s.written.mapM e.describedEntry
    return props ++ e.describedHandler

end Element

/-! ## Reading arguments -/

/-- What an argument of an element is read back as. -/
def Argument.describe (a : Argument) (e : Element) : Except NumberError Json := do
  match ← a.value e with
  | some v => a.format.describe v
  | none => return .null

/-- That a token is what an argument of an element is written as, and is read back as described. -/
structure Argument.Reads (a : Argument) (e : Element) (token : List Char) (v : Json) : Prop where
  render : a.render e = .ok token
  describe : a.describe e = .ok v
  isArgument : IsArgument token
  value : ∀ bindings, Shape.argumentValue? a.format bindings token = some v

theorem Argument.reads_of_admits {a : Argument} {e : Element} {v : Json} {k : PropKind}
    (hv : a.value e = .ok (some v)) (hf : a.format.Fits k) (hk : k.Admits v) :
    ∃ token v', a.Reads e token v' := by
  obtain ⟨token, v', hwrite, hdescribe, hargument, hread⟩ := Format.write_of_admits hf hk
  refine ⟨token, v', ?_, ?_, hargument, hread⟩
  · rw [render, hv]
    exact hwrite
  · rw [describe, hv]
    exact hdescribe

/-- An argument of a readable element is written and read back. -/
theorem Argument.reads_of_readable {e : Element} (he : e.Readable) {a : Argument}
    (ha : a.Supported e.type) : ∃ token v, a.Reads e token v := by
  unfold Supported at ha
  cases hs : a.source with
  | width =>
    rw [hs] at ha
    exact reads_of_admits (v := .num e.w) (k := .number) (by rw [value, hs])
      (by rw [ha]; decide) he.w
  | height =>
    rw [hs] at ha
    exact reads_of_admits (v := .num e.h) (k := .number) (by rw [value, hs])
      (by rw [ha]; decide) he.h
  | prop key =>
    rw [hs] at ha
    obtain ⟨spec, hspec, hfits, hvalue⟩ := ha
    obtain ⟨v, hv, hadmits⟩ := he.resolveProp hspec hvalue
    exact reads_of_admits (by rw [value, hs]; exact hv) hfits hadmits

/-- A table with some entries put into it. -/
def Table.insertAll {α : Type} (t : Table α) (entries : List (String × α)) : Table α :=
  entries.foldl (fun t q => t.insert q.1 q.2) t

theorem Table.entries_insertAll {α : Type} (t : Table α) (entries : List (String × α)) :
    (t.insertAll entries).entries =
      entries.foldl (fun table e => Entries.insert table e.1 e.2) t.entries := by
  induction entries generalizing t with
  | nil => rfl
  | cons e entries ih => exact ih (t.insert e.1 e.2)

namespace Shape

theorem addArgument_of_size {a : Argument} (h : a.written? = none) (type : String)
    (fields : Fields) (value? : Option Json) :
    ∃ w? h?, addArgument type fields a value? = ⟨fields.props, w?, h?, fields.handler?⟩ := by
  unfold addArgument
  unfold Argument.written? at h
  cases hs : a.source with
  | prop key => simp [hs] at h
  | width => dsimp only; split <;> exact ⟨_, _, rfl⟩
  | height => dsimp only; split <;> exact ⟨_, _, rfl⟩

theorem addArgument_of_prop {a : Argument} {p : String × Format} (h : a.written? = some p)
    (type : String) (fields : Fields) (v : Json) :
    addArgument type fields a (some v) = { fields with props := fields.props.insert p.1 v } := by
  unfold Argument.written? at h
  cases hs : a.source with
  | width => simp [hs] at h
  | height => simp [hs] at h
  | prop key =>
    obtain rfl : (key, a.format) = p := by simpa [hs] using h
    rw [addArgument, hs]
    rfl

theorem describedEntry_of_prop {a : Argument} {p : String × Format} (h : a.written? = some p)
    {e : Element} {v : Json} (hv : a.describe e = .ok v) : e.describedEntry p = .ok (p.1, v) := by
  unfold Argument.written? at h
  cases hs : a.source with
  | width => simp [hs] at h
  | height => simp [hs] at h
  | prop key =>
    obtain rfl : (key, a.format) = p := by simpa [hs] using h
    unfold Argument.describe Argument.value at hv
    rw [hs] at hv
    rw [Element.describedEntry, Element.describedProp]
    exact congrArg (Except.map (key, ·)) hv

/-- The arguments of a readable element are written, and reading them puts the described values
into the fields. -/
theorem addArguments_of_readable {e : Element} (he : e.Readable) {args : List Argument}
    (hargs : ∀ a ∈ args, a.Supported e.type) :
    ∃ tokens props, args.mapM (fun a => a.render e) = .ok tokens ∧
      (∀ t ∈ tokens, IsArgument t) ∧
      (args.filterMap Argument.written?).mapM e.describedEntry = .ok props ∧
      ∀ bindings fields, ∃ w? h?, addArguments e.type bindings fields args tokens =
        ⟨fields.props.insertAll props, w?, h?, fields.handler?⟩ := by
  induction args with
  | nil =>
    refine ⟨[], [], rfl, by simp, rfl, fun bindings fields => ⟨fields.w?, fields.h?, ?_⟩⟩
    rw [addArguments]
    rfl
  | cons a args ih =>
    obtain ⟨token, v, hrender, hdescribe, hargument, hvalue⟩ :=
      Argument.reads_of_readable he (hargs a List.mem_cons_self)
    obtain ⟨tokens, props, htokens, hall, hprops, hadd⟩ :=
      ih fun b hb => hargs b (List.mem_cons_of_mem _ hb)
    have hrenders : (a :: args).mapM (fun a => a.render e) = .ok (token :: tokens) := by
      rw [List.mapM_cons, hrender, htokens]
      rfl
    have halls : ∀ t ∈ token :: tokens, IsArgument t := by
      rintro t (_ | ⟨_, ht⟩)
      · exact hargument
      · exact hall t ht
    cases hw : a.written? with
    | none =>
      refine ⟨token :: tokens, props, hrenders, halls, ?_, fun bindings fields => ?_⟩
      · rw [List.filterMap_cons_none hw, hprops]
      · obtain ⟨w?, h?, hsize⟩ := addArgument_of_size hw e.type fields (some v)
        rw [addArguments, hvalue, hsize]
        exact hadd bindings _
    | some p =>
      refine ⟨token :: tokens, (p.1, v) :: props, hrenders, halls, ?_, fun bindings fields => ?_⟩
      · rw [List.filterMap_cons_some hw, List.mapM_cons, describedEntry_of_prop hw hdescribe,
          hprops]
        rfl
      · rw [addArguments, hvalue, addArgument_of_prop hw]
        exact hadd bindings _

end Shape

theorem Table.insertAll_empty {α : Type} (entries : List (String × α)) :
    Table.empty.insertAll entries = Table.ofList entries :=
  Table.ext (Table.entries_insertAll Table.empty entries)

end SceneScript
