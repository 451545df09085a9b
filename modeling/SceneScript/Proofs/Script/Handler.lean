import SceneScript.Proofs.Script.Marked
import SceneScript.Proofs.Script.Reader

/-!
# Which handler a candidate gets

A condition names its handler in the statement itself, a slider in the statement that follows it in
its block (`CallsHandler`). A candidate that has been found changes no more once another statement
was read behind it (`ReaderState.Keeps`), so what a statement says of its handler is what the
candidate of the script says in the end.

Main statement: the candidate of a statement that calls a handler stores it, unless it is the one
made from its name (`exists_tellsHandler`).
-/

namespace SceneScript

open Lua Text

/-! ## Handlers in statements -/

/-- A word with another initial than the trimmed text is not at the front of the text. -/
theorem Text.afterWord?_of_head_trim {word s : List Char} {a c : Char} (ha : word.head? = some a)
    (hblank : isBlank a = false) (hc : (trim s).head? = some c) (hne : a ≠ c) :
    afterWord? word s = none := by
  obtain ⟨front, back, hs, hfront, -⟩ := exists_eq_trim s
  cases front with
  | nil =>
    have hhead : s.head? = some c := by
      rw [hs, List.nil_append, List.head?_append, hc]
      rfl
    exact afterWord?_of_head ha hhead hne
  | cons b front =>
    rw [List.all_cons, Bool.and_eq_true] at hfront
    have hhead : s.head? = some b := by rw [hs]; rfl
    exact afterWord?_of_head ha hhead fun heq => by rw [heq, hfront.1] at hblank; cases hblank

namespace Shape

theorem shapeOf?_name : ∀ s ∈ shapes, shapeOf? s.type.name = some s := by
  decide +kernel

theorem isCallee_of_thenHandler? {rest handler : List Char}
    (h : thenHandler? rest = some handler) : isCallee handler = true := by
  obtain ⟨rest₁, -, h⟩ := Option.bind_eq_some_iff.1 h
  obtain ⟨rest₂, -, h⟩ := Option.bind_eq_some_iff.1 h
  exact isCallee_of_calledName? h

theorem recognize?_of_matchStatement? {σ : List Char} {s : Shape} {call : Call}
    (h : matchStatement? σ = some (s, call)) : s.recognize? σ = some call := by
  obtain ⟨s', -, heq⟩ := List.exists_of_findSome?_eq_some h
  obtain ⟨call', hcall, hpair⟩ := Option.map_eq_some_iff.1 heq
  obtain ⟨rfl, rfl⟩ := Prod.mk.inj hpair
  exact hcall

/-- A statement that names a handler is a condition. -/
theorem conditional_of_handler? {s : Shape} {σ : List Char} {call : Call} {handler : List Char}
    (h : s.recognize? σ = some call) (hhandler : call.handler? = some handler) :
    s.form = .conditional ∧ isCallee handler = true := by
  unfold recognize? at h
  dsimp only at h
  split at h
  · split at h
    · obtain rfl := Option.some.inj h
      cases hhandler
    · cases h
  · obtain ⟨⟨targets, opened⟩, -, h⟩ := Option.bind_eq_some_iff.1 h
    obtain ⟨⟨arguments, rest⟩, -, h⟩ := Option.bind_eq_some_iff.1 h
    obtain rfl := Option.some.inj h
    dsimp only at hhandler
    split at hhandler
    · next hform => exact ⟨hform, isCallee_of_thenHandler? hhandler⟩
    · cases hhandler

/-- What follows a slider and calls its handler is a condition. -/
theorem of_followUpHandler? {s : Shape} {call : Call} {τ handler : List Char}
    (h : s.followUpHandler? call τ = some handler) :
    s.form = .slider ∧ (trim τ).head? = some 'i' ∧ isCallee handler = true := by
  unfold followUpHandler? at h
  split at h
  · next hform htargets =>
    obtain ⟨rest₁, hif, h⟩ := Option.bind_eq_some_iff.1 h
    obtain ⟨rest₂, -, h⟩ := Option.bind_eq_some_iff.1 h
    obtain ⟨rest₃, -, h⟩ := Option.bind_eq_some_iff.1 h
    obtain ⟨rest₄, -, h⟩ := Option.bind_eq_some_iff.1 h
    obtain ⟨rest₅, -, h⟩ := Option.bind_eq_some_iff.1 h
    obtain ⟨rest₆, -, h⟩ := Option.bind_eq_some_iff.1 h
    exact ⟨hform, by rw [append_of_afterWord? hif]; rfl, isCallee_of_calledName? h⟩
  · cases h

/-- A slider assigns to identifiers. -/
theorem isIdentifier_of_mem_targets {s : Shape} {σ : List Char} {call : Call}
    (h : s.recognize? σ = some call) : ∀ target ∈ call.targets, isIdentifier target = true := by
  unfold recognize? at h
  dsimp only at h
  split at h
  · split at h
    · obtain rfl := Option.some.inj h
      simp
    · cases h
  · obtain ⟨⟨targets, opened⟩, hopening, h⟩ := Option.bind_eq_some_iff.1 h
    obtain ⟨⟨arguments, rest⟩, -, h⟩ := Option.bind_eq_some_iff.1 h
    obtain rfl := Option.some.inj h
    have hslider : ∀ {t : List Char}, sliderOpening? s.function t = some (targets, opened) →
        ∀ target ∈ targets, isIdentifier target = true := by
      intro t ht
      obtain ⟨⟨value, rest₁⟩, hvalue, ht⟩ := Option.bind_eq_some_iff.1 ht
      obtain ⟨rest₂, -, ht⟩ := Option.bind_eq_some_iff.1 ht
      obtain ⟨⟨done, rest₃⟩, hdone, ht⟩ := Option.bind_eq_some_iff.1 ht
      obtain ⟨rest₄, -, ht⟩ := Option.bind_eq_some_iff.1 ht
      obtain ⟨opened', -, ht⟩ := Option.bind_eq_some_iff.1 ht
      obtain ⟨rfl, -⟩ := Prod.mk.inj (Option.some.inj ht)
      intro target htarget
      rcases List.mem_pair.1 htarget with rfl | rfl
      · exact isIdentifier_of_takeIdentifier? hvalue
      · exact isIdentifier_of_takeIdentifier? hdone
    unfold opening? at hopening
    split at hopening
    · obtain ⟨_, -, heq⟩ := Option.map_eq_some_iff.1 hopening
      obtain ⟨rfl, -⟩ := Prod.mk.inj heq
      simp
    · obtain ⟨rest₁, -, hopening⟩ := Option.bind_eq_some_iff.1 hopening
      obtain ⟨rest₂, -, hopening⟩ := Option.bind_eq_some_iff.1 hopening
      obtain ⟨opened', -, hopening⟩ := Option.bind_eq_some_iff.1 hopening
      obtain ⟨rfl, -⟩ := Prod.mk.inj (Option.some.inj hopening)
      simp
    · rcases Option.or_eq_some_iff.1 hopening with hopening | ⟨-, hopening⟩
      · obtain ⟨t, -, ht⟩ := Option.bind_eq_some_iff.1 hopening
        exact hslider ht
      · exact hslider hopening
    · cases hopening

/-- What calls the handler of a slider is no statement of a shape. -/
theorem matchStatement?_of_followUpHandler? {s : Shape} {call : Call} {τ handler : List Char}
    (htargets : ∀ target ∈ call.targets, isIdentifier target = true)
    (h : s.followUpHandler? call τ = some handler) : matchStatement? τ = none := by
  unfold followUpHandler? at h
  split at h
  · next value done targets hform hcall =>
    obtain ⟨rest₁, hif, h⟩ := Option.bind_eq_some_iff.1 h
    obtain ⟨rest₂, hgap, h⟩ := Option.bind_eq_some_iff.1 h
    obtain ⟨rest₃, hdone, h⟩ := Option.bind_eq_some_iff.1 h
    obtain ⟨rest₄, hgap', h⟩ := Option.bind_eq_some_iff.1 h
    obtain ⟨rest₅, hthen, -⟩ := Option.bind_eq_some_iff.1 h
    have hidentifier := htargets done (by rw [hcall]; simp)
    obtain ⟨hne, hword⟩ := isWord_of_isIdentifier hidentifier
    have hhead : (trim τ).head? = some 'i' := by
      rw [append_of_afterWord? hif]
      rfl
    have hrest₂ : rest₂ = done ++ rest₃ := append_of_afterWord? hdone
    obtain ⟨b, u, rfl, hb, hu⟩ := exists_of_afterBlanks? hgap
    obtain ⟨b', u', rfl, hb', hu'⟩ := exists_of_afterBlanks? hgap'
    have hparenthesis : atParenthesis? u' = none := by
      rw [atParenthesis?, ← hu', append_of_afterWord? hthen]
      rfl
    refine List.findSome?_eq_none_iff.2 fun s' hs' => ?_
    have hwell := wellFormed_of_mem_shapes s' hs'
    have hopening : s'.opening? (trim τ) = none := by
      unfold opening?
      cases s'.form with
      | call =>
        dsimp only
        rw [callOf?, afterWord?_of_head hwell.initial hhead (by decide)]
        rfl
      | conditional =>
        have hcall := callOf?_blank (isNameChar_of_isIdentifier hidentifier)
          (notMem_function hs' (isNameChar_of_isBlank hb')) hb' hparenthesis
        rw [hif]
        simp only [Option.bind_eq_bind, Option.bind_some, hgap, hrest₂, hcall]
        rfl
      | slider =>
        have htake : takeIdentifier? ("if".toList ++ b :: u) = some ("if".toList, b :: u) :=
          takeIdentifier?_append (by decide) (forall_head_cons (by
            by_contra hw
            rw [isBlank_of_isWord (by simpa using hw)] at hb
            cases hb))
        obtain ⟨d, done', rfl⟩ := List.exists_cons_of_ne_nil hne
        have hd := hword d List.mem_cons_self
        have hcomma : afterChar? ',' (trimLeft (b :: u)) = none := by
          rw [trimLeft, List.dropWhile_cons_of_pos hb]
          change afterChar? ',' (trimLeft u) = none
          rw [← hu, hrest₂, List.cons_append, afterChar?, afterWord?, if_neg]
          rintro rfl
          exact absurd hd (by decide)
        have hslider : sliderOpening? s'.function (trim τ) = none := by
          rw [append_of_afterWord? hif, sliderOpening?, htake]
          simp only [Option.bind_eq_bind, Option.bind_some, hcomma]
          rfl
        dsimp only
        rw [optionalLocal, afterLocal?_of_head hhead (by decide), hslider]
        rfl
      | comment => rfl
    rw [recognize?]
    simp [hopening, isDrawLater_of_head hhead (by decide : '-' ≠ 'i')]
  · cases h

theorem mem_keys_addArgument {type : String} {fields : Fields} {a : Argument}
    {value? : Option Json} {key : String}
    (h : key ∈ (addArgument type fields a value?).props.keys) :
    key ∈ fields.props.keys ∨ key ∈ (a.written?.map Prod.fst) := by
  cases hw : a.written? with
  | none =>
    obtain ⟨w?, h?, heq⟩ := addArgument_of_size hw type fields value?
    rw [heq] at h
    exact .inl h
  | some p =>
    unfold Argument.written? at hw
    unfold addArgument at h
    cases hs : a.source with
    | width => simp [hs] at hw
    | height => simp [hs] at hw
    | prop k =>
      obtain rfl : (k, a.format) = p := by simpa [hs] using hw
      rw [hs] at h
      dsimp only at h
      split at h
      · rw [Table.keys_insert] at h
        split at h
        · exact .inl h
        · refine (List.mem_append.1 h).imp_right fun h => ?_
          rw [List.mem_singleton.1 h]
          rfl
      · exact .inl h

theorem mem_keys_addArguments {type : String} {bindings : Lua.Bindings} {fields : Fields}
    {args : List Argument} {tokens : List (List Char)} {key : String}
    (h : key ∈ (addArguments type bindings fields args tokens).props.keys) :
    key ∈ fields.props.keys ∨ key ∈ (args.filterMap Argument.written?).map Prod.fst := by
  have hcons : ∀ {fields : Fields} {a : Argument} {args : List Argument} {value? : Option Json},
      key ∈ (addArgument type fields a value?).props.keys ∨
        key ∈ (args.filterMap Argument.written?).map Prod.fst →
      key ∈ fields.props.keys ∨ key ∈ ((a :: args).filterMap Argument.written?).map Prod.fst := by
    rintro fields a args value? (h | h)
    · refine (mem_keys_addArgument h).imp_right fun h => ?_
      obtain ⟨p, hp, rfl⟩ := Option.map_eq_some_iff.1 h
      rw [List.filterMap_cons_some hp]
      exact List.mem_cons_self
    · refine .inr ?_
      rw [List.filterMap_cons]
      split
      · exact h
      · exact List.mem_cons_of_mem _ h
  induction args generalizing fields tokens with
  | nil => exact .inl h
  | cons a args ih =>
    cases tokens with
    | nil => exact hcons (ih h)
    | cons token tokens => exact hcons (ih h)

theorem props_addDiameter (s : Shape) (fields : Fields) :
    (s.addDiameter fields).props = fields.props := by
  unfold addDiameter
  split <;> rfl

/-- The props that a statement gives are those of its shape. -/
theorem mem_written_of_mem_keys {s : Shape} {bindings : Lua.Bindings} {call : Call} {key : String}
    (h : key ∈ (s.extract bindings call).props.keys) : key ∈ s.written.map Prod.fst := by
  unfold extract at h
  unfold written
  split at h
  · next hform =>
    rw [if_pos hform]
    obtain ⟨entry, hentry, rfl⟩ := List.mem_map.1 h
    have hmem := Table.mem_of_mem_ofList hentry
    simp only [List.mem_append, Option.mem_toList, Option.map_eq_some_iff] at hmem
    rcases hmem with (⟨_, -, rfl⟩ | ⟨_, -, rfl⟩) | ⟨_, -, rfl⟩ <;> simp
  · next hform =>
    rw [if_neg hform]
    rw [props_addDiameter] at h
    refine (mem_keys_addArguments h).resolve_left ?_
    simp [Table.empty, Table.keys, Entries.keys]

theorem handler?_addArguments (type : String) (bindings : Lua.Bindings) (fields : Fields)
    (args : List Argument) (tokens : List (List Char)) :
    (addArguments type bindings fields args tokens).handler? = fields.handler? := by
  have hadd : ∀ (fields : Fields) (a : Argument) (value? : Option Json),
      (addArgument type fields a value?).handler? = fields.handler? := by
    intro fields a value?
    unfold addArgument
    repeat' split
    all_goals rfl
  induction args generalizing fields tokens with
  | nil => rfl
  | cons a args ih =>
    cases tokens with
    | nil => exact (ih _ _).trans (hadd _ _ _)
    | cons token tokens => exact (ih _ _).trans (hadd _ _ _)

/-- A condition gives the handler that it names. -/
theorem handler?_extract {s : Shape} (bindings : Lua.Bindings) (call : Call)
    (hform : s.form ≠ .slider) : (s.extract bindings call).handler? = call.handler? := by
  have hdiameter : ∀ fields : Fields, (s.addDiameter fields).handler? = fields.handler? := by
    intro fields
    unfold addDiameter
    split <;> rfl
  rw [extract, if_neg hform, hdiameter, handler?_addArguments]

/-- A slider names no handler in the statement itself. -/
theorem handler?_extract_slider {s : Shape} (bindings : Lua.Bindings) (call : Call)
    (hform : s.form = .slider) : (s.extract bindings call).handler? = none := by
  rw [extract, if_pos hform]
  rfl

/-- The handler is none of the props that a statement gives. -/
theorem get?_extract_handler {s : Shape} (hs : s ∈ shapes) {k : HandlerKey}
    (hk : s.handler? = some k) (bindings : Lua.Bindings) (call : Call) :
    (s.extract bindings call).props.get? k.key = none := by
  refine Table.get?_eq_none_iff.2 fun hmem => ?_
  have hkeys := (wellFormed_of_mem_shapes s hs).keys
  rw [hk, List.nodup_append] at hkeys
  exact hkeys.2.2 _ (mem_written_of_mem_keys hmem) k.key (by simp) rfl

end Shape

/-! ## Candidates with a handler -/

namespace Candidate

/-- The prop for the handler of a candidate of an interactive type. -/
def handlerKey? (c : Candidate) : Option HandlerKey := (shapeOf? c.type).bind Shape.handler?

/-- That a candidate has a handler: it stores it, unless it is the one made from its name. -/
structure TellsHandler (c : Candidate) (k : HandlerKey) (handler : List Char) : Prop where
  key : c.handlerKey? = some k
  callee : isCallee handler = true
  stored : c.props.get? k.key =
    if c.derives k handler then none else some (.str (String.ofList handler))

/-- A statement makes a candidate of its props, and gives it the handler that it names. -/
theorem exists_ofCall_eq (bindings : Lua.Bindings) (shape : Shape) (call : Call)
    (marker? : Option Marker) (x y : Num) (line : ℕ) :
    ∃ c : Candidate, c.type = shape.type.name ∧ c.props = (shape.extract bindings call).props ∧
      ofCall bindings shape call marker? x y line =
        c.withHandler shape (shape.extract bindings call).handler? :=
  ⟨_, rfl, rfl, rfl⟩

/-- The candidate of a slider says nothing of a handler. -/
theorem get?_ofCall_slider {shape : Shape} (hs : shape ∈ shapes) (hform : shape.form = .slider)
    {k : HandlerKey} (hk : shape.handler? = some k) (bindings : Lua.Bindings) (call : Call)
    (marker? : Option Marker) (x y : Num) (line : ℕ) :
    (ofCall bindings shape call marker? x y line).props.get? k.key = none := by
  obtain ⟨c, -, hprops, heq⟩ := exists_ofCall_eq bindings shape call marker? x y line
  rw [heq, Shape.handler?_extract_slider bindings call hform, withHandler_none, hprops]
  exact Shape.get?_extract_handler hs hk bindings call

/-- A candidate that says nothing of a handler has the one that it is given. -/
theorem tellsHandler_withHandler {c : Candidate} {shape : Shape} (hs : shape ∈ shapes)
    (htype : c.type = shape.type.name) {k : HandlerKey} (hk : shape.handler? = some k)
    (hnone : c.props.get? k.key = none) {handler : List Char} (hcallee : isCallee handler = true) :
    (c.withHandler shape (some handler)).TellsHandler k handler := by
  have hkey : ∀ props, ({ c with props := props } : Candidate).handlerKey? = some k := by
    intro props
    rw [handlerKey?, htype, Shape.shapeOf?_name shape hs]
    exact hk
  unfold withHandler
  rw [hk]
  dsimp only
  split
  · next hderives => exact ⟨hkey c.props, hcallee, by rw [if_pos hderives, hnone]⟩
  · next hderives =>
    refine ⟨hkey _, hcallee, ?_⟩
    rw [Table.get?_insert_self]
    exact (if_neg hderives).symm

/-- The candidate of a condition has the handler that the condition names. -/
theorem tellsHandler_ofCall {shape : Shape} (hs : shape ∈ shapes) {call : Call}
    {handler : List Char} (hform : shape.form = .conditional)
    (hhandler : call.handler? = some handler) (hcallee : isCallee handler = true) {k : HandlerKey}
    (hk : shape.handler? = some k) (bindings : Lua.Bindings) (marker? : Option Marker) (x y : Num)
    (line : ℕ) : (ofCall bindings shape call marker? x y line).TellsHandler k handler := by
  obtain ⟨c, htype, hprops, heq⟩ := exists_ofCall_eq bindings shape call marker? x y line
  rw [heq, Shape.handler?_extract bindings call (by simp [hform]), hhandler]
  refine tellsHandler_withHandler hs htype hk ?_ hcallee
  rw [hprops]
  exact Shape.get?_extract_handler hs hk bindings call

end Candidate

/-! ## Reading on -/

namespace ReaderState

/-- The reader has found some candidates that change no more: if the last of them is the newest one,
no handler may follow. -/
structure Keeps (fixed : List Candidate) (r : ReaderState) : Prop where
  found : ∃ new, r.found = new ++ fixed ∧ (new = [] → r.current.awaiting? = none)
  around : ∀ c ∈ r.around, c.awaiting? = none

namespace Keeps

variable {fixed : List Candidate} {r : ReaderState} {bindings : Lua.Bindings} {n : ℕ}

theorem of_idle (h : r.Keeps fixed) {c : Context} (hc : c.awaiting? = none) :
    ({ r with current := c } : ReaderState).Keeps fixed := by
  obtain ⟨new, hnew, -⟩ := h.found
  exact ⟨⟨new, hnew, fun _ => hc⟩, h.around⟩

theorem mark (h : r.Keeps fixed) (m : Marker) : (r.mark m).Keeps fixed := ⟨h.found, h.around⟩

theorem push (h : r.Keeps fixed) : r.push.Keeps fixed := by
  obtain ⟨new, hnew, -⟩ := h.found
  refine ⟨⟨new, hnew, fun _ => rfl⟩, fun c hc => ?_⟩
  rcases List.mem_cons.1 hc with rfl | hc
  · rfl
  · exact h.around c hc

theorem pop (h : r.Keeps fixed) : r.pop.Keeps fixed := by
  unfold ReaderState.pop
  split
  · exact h
  · next c cs hcs =>
    obtain ⟨new, hnew, -⟩ := h.found
    exact ⟨⟨new, hnew, fun _ => h.around c (hcs ▸ List.mem_cons_self)⟩,
      fun c' hc' => h.around c' (hcs ▸ List.mem_cons_of_mem _ hc')⟩

theorem recognize (h : r.Keeps fixed) (σ : List Char) :
    (r.recognize bindings n σ).Keeps fixed := by
  unfold ReaderState.recognize
  split
  · exact h
  · obtain ⟨new, hnew, -⟩ := h.found
    exact ⟨⟨_ :: new, by rw [hnew]; rfl, by simp⟩, h.around⟩

theorem enter (h : r.Keeps fixed) (σ : List Char) : (r.enter bindings n σ).Keeps fixed := by
  unfold ReaderState.enter
  split
  · exact h.recognize σ
  · next shape call hawaiting =>
    have hidle : ({ r with current := { r.current with awaiting? := none } }
        : ReaderState).Keeps fixed := h.of_idle rfl
    dsimp only
    split
    · next handler hfollows =>
      obtain ⟨new, hnew, hnone⟩ := h.found
      -- a handler is awaited, so the newest candidate is a new one
      cases new with
      | nil => simp [hnone rfl] at hawaiting
      | cons c new =>
        unfold giveHandler
        dsimp only
        rw [hnew]
        exact ⟨⟨_ :: new, rfl, by simp⟩, h.around⟩
    · exact hidle.recognize σ

theorem handle (h : r.Keeps fixed) {e : ℕ × Event} {r' : ReaderState}
    (hr : r.handle bindings e = .ok r') : r'.Keeps fixed := by
  obtain ⟨n, event⟩ := e
  cases event with
  | marker m =>
    obtain rfl := Except.ok.inj hr
    exact h.mark m
  | statement σ =>
    change ReaderState.step bindings n r σ = .ok r' at hr
    unfold ReaderState.step at hr
    split at hr
    · obtain rfl := Except.ok.inj hr
      exact h.push
    · split at hr
      · obtain rfl := Except.ok.inj hr
        exact h.pop
      · split at hr
        · obtain ⟨c, hc, hr⟩ := bind_eq_ok.1 hr
          obtain rfl := Except.ok.inj hr
          exact h.of_idle (awaiting?_move hc)
        · obtain rfl := Except.ok.inj hr
          split
          · exact h
          · exact h.enter σ

/-- Candidates that change no more are still there after any events. -/
theorem handleAll (h : r.Keeps fixed) {es : List (ℕ × Event)} {r' : ReaderState}
    (hr : es.foldlM (ReaderState.handle bindings) r = .ok r') : r'.Keeps fixed := by
  induction es generalizing r with
  | nil =>
    obtain rfl := Except.ok.inj hr
    exact h
  | cons e es ih =>
    rw [List.foldlM_cons] at hr
    obtain ⟨r₁, he, hes⟩ := bind_eq_ok.1 hr
    exact ih (h.handle he) hes

theorem start : ReaderState.start.Keeps [] := ⟨⟨[], rfl, fun _ => rfl⟩, by simp [ReaderState.start]⟩

/-- The reader keeps what it has found when no handler may follow. -/
theorem of_found (haround : ∀ c ∈ r.around, c.awaiting? = none)
    (hidle : r.current.awaiting? = none) : r.Keeps r.found :=
  ⟨⟨[], rfl, fun _ => hidle⟩, haround⟩

end Keeps

end ReaderState

/-! ## Statements that call a handler -/

deriving instance DecidableEq for Event

/-- The events of a script. -/
def eventsOf (text : List Char) : Except NumberError (List (ℕ × Event)) := do
  let contents ← (Text.lines text).mapM ReaderState.LineContent.ofLine
  return numbered 1 contents

/-- The candidates of a script are found by handling its events. -/
theorem exists_reader_of_candidatesOf {text : List Char} {cs : List Candidate}
    (h : candidatesOf text = .ok cs) :
    ∃ es r, eventsOf text = .ok es ∧ cs = r.found.reverse ∧
      es.foldlM (ReaderState.handle (bindingsOf (Text.lines text))) ReaderState.start = .ok r := by
  obtain ⟨r, hr, hcs⟩ := bind_eq_ok.1 h
  obtain ⟨contents, hall, hfold⟩ := ReaderState.exists_contents_of_readLines hr
  have hes : eventsOf text = .ok (numbered 1 contents) :=
    bind_eq_ok.2 ⟨contents, mapM_eq_ok_iff.2 hall, rfl⟩
  exact ⟨_, r, hes, (Except.ok.inj hcs).symm, hfold⟩

/-- The number of candidates found in some events. -/
def foundIn (bindings : Lua.Bindings) (es : List (ℕ × Event)) : Except NumberError ℕ :=
  (es.foldlM (ReaderState.handle bindings) ReaderState.start).map fun r => r.found.length

/-- A statement behind some events makes the candidate of an index, counted from zero: so many are
found before it, and one more with it. -/
def MakesCandidate (bindings : Lua.Bindings) (before : List (ℕ × Event)) (n : ℕ) (σ : List Char)
    (index : ℕ) : Prop :=
  foundIn bindings before = .ok index ∧
    foundIn bindings (before ++ [(n, .statement σ)]) = .ok (index + 1)

/-- The statement that makes the candidate of an index calls a handler: it is a condition with the
call behind it, or a slider whose next statement is the condition with the call. -/
inductive CallsHandler (bindings : Lua.Bindings) (es : List (ℕ × Event)) (index : ℕ)
    (handler : List Char) : Prop
  | condition {before behind : List (ℕ × Event)} {n : ℕ} {σ : List Char} {shape : Shape}
      {call : Call} (hes : es = before ++ (n, .statement σ) :: behind)
      (hmakes : MakesCandidate bindings before n σ index)
      (hmatch : matchStatement? σ = some (shape, call)) (hhandler : call.handler? = some handler)
  | slider {before between behind : List (ℕ × Event)} {n m : ℕ} {σ τ : List Char} {shape : Shape}
      {call : Call}
      (hes : es = before ++ (n, .statement σ) :: (between ++ (m, .statement τ) :: behind))
      (hmakes : MakesCandidate bindings before n σ index)
      (hmatch : matchStatement? σ = some (shape, call)) (hbetween : statementsOf between = [])
      (hfollows : shape.followUpHandler? call τ = some handler)

namespace ReaderState

variable {r r' : ReaderState} {bindings : Lua.Bindings} {n : ℕ} {σ : List Char}

theorem exists_found_of_recognize (hidle : r.current.awaiting? = none)
    (hlength : (r.recognize bindings n σ).found.length = r.found.length + 1) :
    ∃ shape call, matchStatement? σ = some (shape, call) ∧
      (r.recognize bindings n σ).around = r.around ∧
      (r.recognize bindings n σ).found = Candidate.ofCall bindings shape call r.current.carried?
        r.current.x r.current.y n :: r.found ∧
      (r.recognize bindings n σ).current.awaiting? =
        if shape.form = .slider then some (shape, call) else none := by
  unfold recognize at hlength ⊢
  cases hmatch : matchStatement? σ with
  | none => simp [hmatch] at hlength
  | some p => exact ⟨p.1, p.2, rfl, rfl, rfl, by dsimp only; rw [hidle]⟩

/-- A handler that is given to a slider makes no candidate. -/
theorem exists_found_of_enter
    (hlength : (r.enter bindings n σ).found.length = r.found.length + 1) :
    ∃ shape call, matchStatement? σ = some (shape, call) ∧
      (r.enter bindings n σ).around = r.around ∧
      (r.enter bindings n σ).found = Candidate.ofCall bindings shape call r.current.carried?
        r.current.x r.current.y n :: r.found ∧
      (r.enter bindings n σ).current.awaiting? =
        if shape.form = .slider then some (shape, call) else none := by
  unfold enter at hlength ⊢
  split at hlength
  · next hidle => exact exists_found_of_recognize hidle hlength
  · dsimp only at hlength ⊢
    split at hlength
    · unfold giveHandler at hlength
      split at hlength <;> simp_all
    · exact exists_found_of_recognize rfl hlength

/-- What a statement does that makes a candidate: it is recognised in the block that is open, and a
slider waits for its handler. -/
theorem exists_found_of_step (hstep : step bindings n r σ = .ok r')
    (hlength : r'.found.length = r.found.length + 1) :
    ∃ shape call, matchStatement? σ = some (shape, call) ∧ r'.around = r.around ∧
      r.around.isEmpty = false ∧
      r'.found = Candidate.ofCall bindings shape call r.current.carried? r.current.x
        r.current.y n :: r.found ∧
      r'.current.awaiting? = if shape.form = .slider then some (shape, call) else none := by
  unfold step at hstep
  split at hstep
  · obtain rfl := Except.ok.inj hstep
    simp [push] at hlength
  · split at hstep
    · obtain rfl := Except.ok.inj hstep
      unfold pop at hlength
      split at hlength <;> simp at hlength
    · split at hstep
      · obtain ⟨c, -, hr⟩ := bind_eq_ok.1 hstep
        obtain rfl := Except.ok.inj hr
        simp at hlength
      · obtain rfl := Except.ok.inj hstep
        split at hlength
        · simp at hlength
        · next hopen =>
          rw [Bool.not_eq_true] at hopen
          rw [if_neg (by simp [hopen])]
          obtain ⟨shape, call, hmatch, haround, hfound, hawaiting⟩ := exists_found_of_enter hlength
          exact ⟨shape, call, hmatch, haround, hopen, hfound, hawaiting⟩

/-- Markers leave the candidates alone, and the slider that waits for its handler. -/
theorem of_markers {es : List (ℕ × Event)} (hes : statementsOf es = [])
    (hr : es.foldlM (handle bindings) r = .ok r') : r'.found = r.found ∧ r'.around = r.around ∧
      r'.current.awaiting? = r.current.awaiting? := by
  induction es generalizing r with
  | nil =>
    obtain rfl := Except.ok.inj hr
    exact ⟨rfl, rfl, rfl⟩
  | cons e es ih =>
    rw [List.foldlM_cons] at hr
    obtain ⟨r₁, he, hrest⟩ := bind_eq_ok.1 hr
    obtain ⟨n, event⟩ := e
    cases event with
    | marker m =>
      obtain rfl := Except.ok.inj he
      exact ih (r := r.mark m) hes hrest
    | statement σ => cases hes

/-- A statement that calls the handler of the slider that waits gives it to the newest candidate. -/
theorem step_followUp {shape : Shape} {call : Call} {τ handler : List Char}
    (hopen : r.around.isEmpty = false) (hawaiting : r.current.awaiting? = some (shape, call))
    (hfollows : shape.followUpHandler? call τ = some handler) {c : Candidate}
    {cs : List Candidate} (hfound : r.found = c :: cs)
    (hstep : step bindings n r τ = .ok r') :
    r'.found = c.withHandler shape (some handler) :: cs ∧ r'.current.awaiting? = none ∧
      r'.around = r.around := by
  obtain ⟨-, hhead, -⟩ := Shape.of_followUpHandler? hfollows
  have hword : ∀ {word : List Char}, word.head? = some 'U' → afterWord? word τ = none := fun hU =>
    afterWord?_of_head_trim hU (by decide) hhead (by decide)
  have hopens : opensBlock τ = false := isEmptyCall_of_head (hword rfl)
  have hcloses : closesBlock τ = false := isEmptyCall_of_head (hword rfl)
  have hmoves : moveArguments? τ = none :=
    moveArguments?_of_callOf? (by rw [callOf?, hword rfl]; rfl)
  rw [step, hopens, hcloses, hmoves] at hstep
  obtain rfl := Except.ok.inj hstep
  simp [hopen, enter, hawaiting, hfollows, giveHandler, hfound]

end ReaderState

/-! ## Handlers of candidates -/

/-- Reading some events in two parts. -/
theorem ReaderState.handleAll_append {bindings : Lua.Bindings} {r r' : ReaderState}
    {es es' : List (ℕ × Event)} (h : (es ++ es').foldlM (handle bindings) r = .ok r') :
    ∃ r₁, es.foldlM (handle bindings) r = .ok r₁ ∧ es'.foldlM (handle bindings) r₁ = .ok r' := by
  rw [List.foldlM_append] at h
  exact bind_eq_ok.1 h

/-- A candidate that changes no more has its index in the script. -/
theorem ReaderState.Keeps.getElem?_reverse {c : Candidate} {cs : List Candidate} {r : ReaderState}
    (h : r.Keeps (c :: cs)) : r.found.reverse[cs.length]? = some c := by
  obtain ⟨new, hnew, -⟩ := h.found
  rw [hnew, List.reverse_append, List.reverse_cons, List.append_assoc,
    List.getElem?_append_right (by simp)]
  simp

/-- The reader behind the statement that makes the candidate of an index. -/
theorem ReaderState.exists_of_makesCandidate {bindings : Lua.Bindings}
    {before behind : List (ℕ × Event)} {n index : ℕ} {σ : List Char} {shape : Shape} {call : Call}
    {r : ReaderState} (hmakes : MakesCandidate bindings before n σ index)
    (hmatch : matchStatement? σ = some (shape, call))
    (hr : (before ++ (n, .statement σ) :: behind).foldlM (handle bindings) start = .ok r) :
    ∃ (r₁ : ReaderState) (marker? : Option Marker) (x y : Num) (cs : List Candidate),
      cs.length = index ∧
      r₁.found = Candidate.ofCall bindings shape call marker? x y n :: cs ∧
      r₁.current.awaiting? = (if shape.form = .slider then some (shape, call) else none) ∧
      r₁.around.isEmpty = false ∧ (∀ c ∈ r₁.around, c.awaiting? = none) ∧
      behind.foldlM (handle bindings) r₁ = .ok r := by
  obtain ⟨r₀, hbefore, hindex⟩ := map_eq_ok.1 hmakes.1
  obtain ⟨r₁, hwith, hlength⟩ := map_eq_ok.1 hmakes.2
  obtain ⟨r₀', hbefore', hwith⟩ := handleAll_append hwith
  obtain rfl := Except.ok.inj (hbefore.symm.trans hbefore')
  obtain ⟨r₁', hstep, hwith⟩ := bind_eq_ok.1 (List.foldlM_cons.symm.trans hwith)
  obtain rfl := Except.ok.inj hwith
  obtain ⟨r₀', hbefore', hr⟩ := handleAll_append hr
  obtain rfl := Except.ok.inj (hbefore.symm.trans hbefore')
  obtain ⟨r₂, hstep', hr⟩ := bind_eq_ok.1 (List.foldlM_cons.symm.trans hr)
  obtain rfl := Except.ok.inj (hstep.symm.trans hstep')
  obtain ⟨shape', call', hmatch', haround, hopen, hfound, hawaiting⟩ :=
    exists_found_of_step hstep (hlength.trans (congrArg (· + 1) hindex.symm))
  obtain ⟨rfl, rfl⟩ := Prod.mk.inj (Option.some.inj (hmatch.symm.trans hmatch'))
  exact ⟨r₁', _, _, _, r₀.found, hindex, hfound, hawaiting, haround ▸ hopen,
    haround ▸ (Keeps.start.handleAll hbefore).around, hr⟩

/-- The candidate of a statement that calls a handler has that handler. -/
theorem exists_tellsHandler {text : List Char} {cs : List Candidate}
    (h : candidatesOf text = .ok cs) {es : List (ℕ × Event)} (hes : eventsOf text = .ok es)
    {index : ℕ} {handler : List Char}
    (hcalls : CallsHandler (bindingsOf (Text.lines text)) es index handler) :
    ∃ c k, cs[index]? = some c ∧ c.TellsHandler k handler := by
  obtain ⟨es', r, hes', rfl, hr⟩ := exists_reader_of_candidatesOf h
  obtain rfl := Except.ok.inj (hes.symm.trans hes')
  have hkey : ∀ {s : Shape}, s ∈ shapes → s.form = .conditional ∨ s.form = .slider →
      ∃ k, s.handler? = some k := fun hs hform => Option.isSome_iff_exists.1
    ((wellFormed_of_mem_shapes _ hs).handler.trans (by simpa using hform))
  cases hcalls with
  | condition hsplit hmakes hmatch hhandler =>
    have hs := Shape.mem_of_matchStatement? hmatch
    obtain ⟨hform, hcallee⟩ :=
      Shape.conditional_of_handler? (Shape.recognize?_of_matchStatement? hmatch) hhandler
    obtain ⟨k, hk⟩ := hkey hs (.inl hform)
    obtain ⟨r₁, marker?, x, y, before, rfl, hfound, hawaiting, -, haround, hr⟩ :=
      ReaderState.exists_of_makesCandidate hmakes hmatch (hsplit ▸ hr)
    have hkeeps := ReaderState.Keeps.of_found haround
      (hawaiting.trans (if_neg (by simp [hform])))
    rw [hfound] at hkeeps
    exact ⟨_, k, (hkeeps.handleAll hr).getElem?_reverse,
      Candidate.tellsHandler_ofCall hs hform hhandler hcallee hk ..⟩
  | slider hsplit hmakes hmatch hbetween hfollows =>
    have hs := Shape.mem_of_matchStatement? hmatch
    obtain ⟨hform, -, hcallee⟩ := Shape.of_followUpHandler? hfollows
    obtain ⟨k, hk⟩ := hkey hs (.inr hform)
    obtain ⟨r₁, marker?, x, y, before, rfl, hfound, hawaiting, hopen, haround, hr⟩ :=
      ReaderState.exists_of_makesCandidate hmakes hmatch (hsplit ▸ hr)
    -- nothing but markers stands between the slider and the call
    obtain ⟨r₂, hmarkers, hr⟩ := ReaderState.handleAll_append hr
    obtain ⟨hfound₂, haround₂, hawaiting₂⟩ := ReaderState.of_markers hbetween hmarkers
    rw [List.foldlM_cons] at hr
    obtain ⟨r₃, hfollow, hr⟩ := bind_eq_ok.1 hr
    obtain ⟨hfound₃, hidle, haround₃⟩ := ReaderState.step_followUp (by rw [haround₂, hopen])
      (by rw [hawaiting₂, hawaiting, if_pos hform]) hfollows (hfound₂.trans hfound) hfollow
    have hkeeps := ReaderState.Keeps.of_found (by rwa [haround₃, haround₂]) hidle
    rw [hfound₃] at hkeeps
    exact ⟨_, k, (hkeeps.handleAll hr).getElem?_reverse,
      Candidate.tellsHandler_withHandler hs (Candidate.type_ofCall ..) hk
        (Candidate.get?_ofCall_slider hs hform hk ..) hcallee⟩

end SceneScript
