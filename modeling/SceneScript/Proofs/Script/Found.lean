import SceneScript.Proofs.Scene.Sound
import SceneScript.Proofs.Script.Shape
import SceneScript.Script.Reader

/-!
# Candidates of any script

Whatever a script says, its candidates are of types that can be created, and their props belong to
these types. The reader keeps this at every step, and also that the slider whose handler may follow
is the newest candidate, so that the handler goes to a candidate with a prop for it.

Main statement: the candidates of a script are sound (`sound_of_candidatesOf`).
-/

namespace SceneScript

/-! ## Fields -/

namespace Shape

/-- A value that an argument is read as may be stored under its prop, and so may the default. -/
theorem holds_of_supported {type key : String} {a : Argument} (ha : a.Supported type)
    (hs : a.source = .prop key) (bindings : Lua.Bindings) (token? : Option (List Char)) {v : Json}
    (hv : (token?.bind (argumentValue? a.format bindings)).or
      ((propSpec? type key).bind PropSpec.default?) = some v) : Holds type key v := by
  unfold Argument.Supported at ha
  rw [hs] at ha
  obtain ⟨spec, hspec, hfits, -⟩ := ha
  refine ⟨spec, hspec, ?_⟩
  rcases Option.or_eq_some_iff.1 hv with hv | ⟨-, hv⟩
  · obtain ⟨token, -, hv⟩ := Option.bind_eq_some_iff.1 hv
    unfold argumentValue? at hv
    split at hv
    · next hf =>
      obtain ⟨t, -, rfl⟩ := Option.map_eq_some_iff.1 hv
      rw [hf] at hfits
      have hk : spec.kind = .text := hfits
      rw [hk]
      trivial
    · next hf =>
      obtain ⟨n, -, rfl⟩ := Option.map_eq_some_iff.1 hv
      have hk : spec.kind ≠ .text := by
        revert hfits hf
        cases a.format with
        | quoted => exact fun _ hf => absurd rfl hf
        | rounded => exact fun hfits _ => hfits
        | number => exact fun hfits _ => hfits
      cases hkind : spec.kind with
      | text => exact absurd hkind hk
      | number => trivial
      | channel => trivial
  · obtain ⟨t, -, hmem, -⟩ := mem_of_propSpec? hspec
    rw [hspec] at hv
    exact (Element.admits_default t spec hmem v hv).holds

theorem soundProps_addArgument {type : String} {a : Argument} (ha : a.Supported type)
    {fields : Fields} (h : SoundProps type fields.props) (bindings : Lua.Bindings)
    (token? : Option (List Char)) :
    SoundProps type
      (addArgument type fields a (token?.bind (argumentValue? a.format bindings))).props := by
  unfold addArgument
  split
  · split <;> exact h
  · split <;> exact h
  · next key hs =>
    split
    · next v hv => exact h.insert (holds_of_supported ha hs bindings token? hv)
    · exact h

theorem soundProps_addArguments {type : String} {args : List Argument}
    (hargs : ∀ a ∈ args, a.Supported type) (bindings : Lua.Bindings) {fields : Fields}
    (h : SoundProps type fields.props) (tokens : List (List Char)) :
    SoundProps type (addArguments type bindings fields args tokens).props := by
  induction args generalizing fields tokens with
  | nil => exact h
  | cons a args ih =>
    have ha := hargs a List.mem_cons_self
    have hrest : ∀ b ∈ args, b.Supported type := fun b hb => hargs b (List.mem_cons_of_mem _ hb)
    cases tokens with
    | nil => exact ih hrest (soundProps_addArgument ha h bindings none) []
    | cons token tokens => exact ih hrest (soundProps_addArgument ha h bindings (some token)) tokens

theorem soundProps_extractSlider {s : Shape} (hs : s.type = .slider) (bindings : Lua.Bindings)
    (call : Call) : SoundProps s.type.name (s.extractSlider bindings call).props := by
  have hbound : ∀ key ∈ ["min", "max"], ∀ position v,
      s.sliderBound bindings call key position = some v → Holds s.type.name key v := by
    have hnumber : ∀ key ∈ ["min", "max"], ∃ spec ∈ propSpec? ElementType.slider.name key,
        spec.kind = .number ∧ ∀ v ∈ spec.default?, spec.kind.Holds v := by
      decide
    intro key hkey position v hv
    rw [hs]
    obtain ⟨spec, hspec, hkind, hdefault⟩ := hnumber key hkey
    refine ⟨spec, hspec, ?_⟩
    rw [sliderBound, hs] at hv
    rcases Option.or_eq_some_iff.1 hv with hv | ⟨-, hv⟩
    · obtain ⟨n, -, rfl⟩ := Option.map_eq_some_iff.1 hv
      rw [hkind]
      trivial
    · rw [Option.mem_def.1 hspec] at hv
      exact hdefault v hv
  refine SoundProps.ofList fun entry hentry => ?_
  simp only [List.mem_append, Option.mem_toList, Option.map_eq_some_iff] at hentry
  rcases hentry with (⟨target, -, rfl⟩ | ⟨v, hv, rfl⟩) | ⟨v, hv, rfl⟩
  · rw [hs]
    exact ⟨⟨"var", .text, none⟩, rfl, trivial⟩
  · exact hbound "min" (by simp) 3 v hv
  · exact hbound "max" (by simp) 4 v hv

/-- What a statement says about its element belongs to the type. -/
theorem soundProps_extract {s : Shape} (hs : s ∈ shapes) (bindings : Lua.Bindings) (call : Call) :
    SoundProps s.type.name (s.extract bindings call).props := by
  have hwell := wellFormed_of_mem_shapes s hs
  unfold extract
  split
  · next hform => exact soundProps_extractSlider (hwell.slider hform) bindings call
  · have hstart :
        SoundProps s.type.name (⟨Table.empty, none, none, call.handler?⟩ : Fields).props :=
      .empty s.type.name
    have hprops := soundProps_addArguments hwell.supported bindings hstart
      (call.arguments.drop s.literals.length)
    unfold addDiameter
    split <;> exact hprops

/-- The types with a shape can be created, and have a text for the handler. -/
theorem creatable_of_mem_shapes : ∀ s ∈ shapes, s.type.isCreatable = true ∧
    ∀ k ∈ s.handler?, ∃ spec ∈ propSpec? s.type.name k.key, spec.kind = .text := by
  decide

theorem mem_of_matchStatement? {statement : List Char} {shape : Shape} {call : Call}
    (h : matchStatement? statement = some (shape, call)) : shape ∈ shapes := by
  obtain ⟨s, hs, heq⟩ := List.exists_of_findSome?_eq_some h
  obtain ⟨c, -, hc⟩ := Option.map_eq_some_iff.1 heq
  obtain ⟨rfl, -⟩ := Prod.mk.inj hc
  exact hs

end Shape

/-! ## Candidates -/

/-- The type can be created, and the props belong to it. -/
structure Candidate.Sound (c : Candidate) : Prop where
  type : ∃ t, ElementType.ofName? c.type = some t ∧ t.isCreatable = true
  props : SoundProps c.type c.props

namespace Candidate

theorem type_withHandler (c : Candidate) (shape : Shape) (handler? : Option (List Char)) :
    (c.withHandler shape handler?).type = c.type := by
  unfold withHandler
  split
  · split <;> rfl
  · rfl

theorem Sound.withHandler {c : Candidate} (h : c.Sound) {shape : Shape} (hs : shape ∈ shapes)
    (htype : c.type = shape.type.name) (handler? : Option (List Char)) :
    (c.withHandler shape handler?).Sound := by
  unfold Candidate.withHandler
  split
  · next key handler hkey =>
    split
    · exact h
    · obtain ⟨spec, hspec, hkind⟩ := (Shape.creatable_of_mem_shapes shape hs).2 key hkey
      refine ⟨h.type, h.props.insert ⟨spec, htype ▸ hspec, ?_⟩⟩
      rw [hkind]
      trivial
  · exact h

theorem type_ofCall (bindings : Lua.Bindings) (shape : Shape) (call : Call)
    (marker? : Option Marker) (x y : Num) (line : ℕ) :
    (ofCall bindings shape call marker? x y line).type = shape.type.name :=
  type_withHandler _ shape _

theorem sound_ofCall {shape : Shape} (hs : shape ∈ shapes) (bindings : Lua.Bindings) (call : Call)
    (marker? : Option Marker) (x y : Num) (line : ℕ) :
    (ofCall bindings shape call marker? x y line).Sound :=
  Sound.withHandler ⟨⟨_, ElementType.ofName?_name _, (Shape.creatable_of_mem_shapes shape hs).1⟩,
    Shape.soundProps_extract hs bindings call⟩ hs rfl _

end Candidate

/-! ## Reading -/

namespace ReaderState

/-- What the reader keeps: its candidates are sound, the slider whose handler may follow is the
newest of them, and only the innermost context waits for one. -/
structure Sound (r : ReaderState) : Prop where
  found : ∀ c ∈ r.found, c.Sound
  awaiting : ∀ shape call, r.current.awaiting? = some (shape, call) →
    shape ∈ shapes ∧ ∃ c cs, r.found = c :: cs ∧ c.type = shape.type.name
  around : ∀ c ∈ r.around, c.awaiting? = none

theorem sound_start : start.Sound :=
  ⟨by simp [start], by simp [start, Context.start], by simp [start]⟩

variable {r : ReaderState} {bindings : Lua.Bindings} {line : ℕ}

theorem Sound.of_idle (h : r.Sound) {c : Context} (hc : c.awaiting? = none) :
    ({ r with current := c } : ReaderState).Sound :=
  ⟨h.found, by simp [hc], h.around⟩

theorem Sound.mark (h : r.Sound) (marker : Marker) : (r.mark marker).Sound :=
  ⟨h.found, h.awaiting, h.around⟩

theorem Sound.push (h : r.Sound) : r.push.Sound := by
  refine ⟨h.found, by simp [ReaderState.push, Context.inner], fun c hc => ?_⟩
  rcases List.mem_cons.1 hc with rfl | hc
  · rfl
  · exact h.around c hc

theorem Sound.pop (h : r.Sound) : r.pop.Sound := by
  unfold ReaderState.pop
  split
  · exact h
  · next c cs hcs =>
    refine ⟨h.found, ?_, fun c' hc' => h.around c' (hcs ▸ List.mem_cons_of_mem _ hc')⟩
    have hc : c.awaiting? = none := h.around c (hcs ▸ List.mem_cons_self)
    simp [hc]

theorem Sound.recognize (h : r.Sound) (hidle : r.current.awaiting? = none)
    (statement : List Char) : (r.recognize bindings line statement).Sound := by
  unfold ReaderState.recognize
  split
  · exact h
  · next shape call hmatch =>
    have hs := Shape.mem_of_matchStatement? hmatch
    refine ⟨fun c hc => ?_, fun shape' call' hawaiting => ?_, h.around⟩
    · rcases List.mem_cons.1 hc with rfl | hc
      · exact Candidate.sound_ofCall hs ..
      · exact h.found c hc
    · dsimp only at hawaiting
      split at hawaiting
      · obtain ⟨rfl, rfl⟩ := Prod.mk.inj (Option.some.inj hawaiting)
        exact ⟨hs, _, _, rfl, Candidate.type_ofCall ..⟩
      · simp [hidle] at hawaiting

theorem Sound.enter (h : r.Sound) (statement : List Char) :
    (r.enter bindings line statement).Sound := by
  unfold ReaderState.enter
  split
  · next hidle => exact h.recognize hidle statement
  · next shape call hawaiting =>
    have hidle : ({ r with current := { r.current with awaiting? := none } } : ReaderState).Sound :=
      h.of_idle rfl
    dsimp only
    split
    · next handler hhandler =>
      obtain ⟨hs, c, cs, hfound, htype⟩ := h.awaiting shape call hawaiting
      have hall := h.found
      unfold giveHandler
      rw [hfound] at hall ⊢
      refine ⟨fun c' hc' => ?_, by simp, h.around⟩
      rcases List.mem_cons.1 hc' with rfl | hc'
      · exact (hall c List.mem_cons_self).withHandler hs htype _
      · exact hall c' (List.mem_cons_of_mem _ hc')
    · exact hidle.recognize rfl statement

theorem awaiting?_move {c c' : Context} {arguments : List (List Char)}
    (h : c.move bindings arguments = .ok c') : c'.awaiting? = none := by
  unfold Context.move at h
  dsimp only at h
  split at h
  · split at h
    · obtain ⟨x, -, h⟩ := bind_eq_ok.1 h
      obtain ⟨y, -, h⟩ := bind_eq_ok.1 h
      obtain rfl := Except.ok.inj h
      rfl
    · obtain rfl := Except.ok.inj h
      rfl
  · obtain rfl := Except.ok.inj h
    rfl

/-- A statement keeps what the reader keeps. -/
theorem Sound.step (h : r.Sound) {statement : List Char} {r' : ReaderState}
    (hstep : step bindings line r statement = .ok r') : r'.Sound := by
  unfold ReaderState.step at hstep
  split at hstep
  · obtain rfl := Except.ok.inj hstep
    exact h.push
  · split at hstep
    · obtain rfl := Except.ok.inj hstep
      exact h.pop
    · split at hstep
      · obtain ⟨c, hc, hr⟩ := bind_eq_ok.1 hstep
        obtain rfl := Except.ok.inj hr
        exact h.of_idle (awaiting?_move hc)
      · obtain rfl := Except.ok.inj hstep
        split
        · exact h
        · exact h.enter statement

theorem Sound.steps {statements : List (List Char)} (h : r.Sound) {r' : ReaderState}
    (hsteps : statements.foldlM (ReaderState.step bindings line) r = .ok r') : r'.Sound := by
  induction statements generalizing r with
  | nil =>
    obtain rfl := Except.ok.inj hsteps
    exact h
  | cons statement statements ih =>
    rw [List.foldlM_cons] at hsteps
    obtain ⟨r₁, hstep, hrest⟩ := bind_eq_ok.1 hsteps
    exact ih (h.step hstep) hrest

theorem Sound.readLine (h : r.Sound) {l : Line} {r' : ReaderState}
    (hline : readLine bindings r l line = .ok r') : r'.Sound := by
  obtain ⟨content, -, hcontent⟩ := bind_eq_ok.1 hline
  cases content with
  | marker m =>
    obtain rfl := Except.ok.inj hcontent
    exact h.mark m
  | statements statements => exact h.steps hcontent

/-- What the reader keeps is kept by any lines. -/
theorem Sound.readLines {ls : List Line} (h : r.Sound) {r' : ReaderState}
    (hlines : readLines bindings line r ls = .ok r') : r'.Sound := by
  induction ls generalizing r line with
  | nil =>
    obtain rfl := Except.ok.inj hlines
    exact h
  | cons l ls ih =>
    obtain ⟨r₁, hline, hrest⟩ := bind_eq_ok.1 hlines
    exact ih (h.readLine hline) hrest

end ReaderState

/-- The candidates of any script are of types that can be created, with props that belong to
them. -/
theorem sound_of_candidatesOf {text : List Char} {cs : List Candidate}
    (h : candidatesOf text = .ok cs) : ∀ c ∈ cs, c.Sound := by
  obtain ⟨r, hr, hcs⟩ := bind_eq_ok.1 h
  obtain rfl := Except.ok.inj hcs
  exact fun c hc => (ReaderState.sound_start.readLines hr).found c (List.mem_reverse.1 hc)

end SceneScript
