import SceneScript.Proofs.Script.Carried
import SceneScript.Proofs.Text.Percent

/-!
# What every candidate of a script has

A candidate is made by a statement, with the marker of its block, and may get a handler after that.
What a marker of a script always has, and what statements make of it and handlers leave, every
candidate of the script has (`forall_of_candidatesOf`).

Main statement: the id of a candidate is not empty and holds no blank, and its name is not empty
(`marked_of_candidatesOf`).
-/

namespace SceneScript

open Text

/-! ## Markers -/

/-- What every marker has: an id of it is not empty and holds no blank, and a name of it is not
empty. -/
structure Marker.Proper (m : Marker) : Prop where
  id_ne : ∀ id, m.id? = some id → id.toList ≠ []
  id_plain : ∀ id, m.id? = some id → ∀ c ∈ id.toList, isBlank c = false
  name_ne : ∀ name, m.name? = some name → name.toList ≠ []

namespace Marker

/-- The value that is being read, in reverse. -/
def FieldState.read : FieldState → List Char
  | .key _ => []
  | .value _ read => read

theorem isBlank_of_mem_fieldsFrom {state : FieldState} {s : List Char}
    (h : ∀ c ∈ state.read, isBlank c = false) :
    ∀ field ∈ fieldsFrom state s, ∀ c ∈ field.2, isBlank c = false := by
  fun_induction fieldsFrom state s with
  | case1 => simp
  | case2 key value => simpa [field, FieldState.read] using h
  | case3 word c s hword ih => exact ih (by simp [FieldState.read])
  | case4 word c s hword hequals ih => exact ih (by simp [FieldState.read])
  | case5 word c s hword hne ih => exact ih (by simp [FieldState.read])
  | case6 key value c s hblank ih =>
    rintro f (_ | ⟨_, hf⟩)
    · simpa [field, FieldState.read] using h
    · exact ih (by simp [FieldState.read]) f hf
  | case7 key value c s hblank ih =>
    refine ih fun d hd => ?_
    rcases List.mem_cons.1 hd with rfl | hd
    · exact Bool.eq_false_of_not_eq_true hblank
    · exact h d hd

theorem mem_of_filled? {fields : Table (List Char)} {key : String} {value : List Char}
    (h : filled? fields key = some value) : (key, value) ∈ fields.entries ∧ value ≠ [] := by
  unfold filled? at h
  split at h
  · cases h
  · next hne => exact ⟨Table.mem_of_get? h, fun heq => hne (heq ▸ h)⟩

/-- What a line is read as is proper. -/
theorem proper_of_read {l : List Char} {m : Marker} (h : read l = .ok (some m)) : m.Proper := by
  unfold read at h
  split at h
  · cases h
  · next rest hrest =>
    have hplain : ∀ field ∈ (fields rest).entries, ∀ c ∈ field.2, isBlank c = false :=
      fun field hfield =>
        isBlank_of_mem_fieldsFrom (by simp [FieldState.read]) field
          (Table.mem_of_mem_ofList hfield)
    unfold ofFields at h
    dsimp only at h
    split at h
    · cases h
    · obtain ⟨w?, -, h⟩ := bind_eq_ok.1 h
      obtain ⟨h?, -, h⟩ := bind_eq_ok.1 h
      obtain rfl := Option.some.inj (Except.ok.inj h)
      refine ⟨fun id hid => ?_, fun id hid => ?_, fun name hname => ?_⟩
      · obtain ⟨value, hvalue, rfl⟩ := Option.map_eq_some_iff.1 hid
        rw [String.toList_ofList]
        exact (mem_of_filled? hvalue).2
      · obtain ⟨value, hvalue, rfl⟩ := Option.map_eq_some_iff.1 hid
        rw [String.toList_ofList]
        exact hplain _ (mem_of_filled? hvalue).1
      · obtain ⟨value, hvalue, rfl⟩ := Option.map_eq_some_iff.1 hname
        rw [String.toList_ofList]
        exact Percent.decode_ne_nil (mem_of_filled? hvalue).2

end Marker

/-! ## Candidates -/

namespace ReaderState

/-- Events are said by the contents of lines. -/
theorem exists_content_of_mem_numbered {n : ℕ} {e : ℕ × Event} {contents : List LineContent}
    (h : e ∈ numbered n contents) : ∃ content ∈ contents, e.2 ∈ content.events := by
  induction contents generalizing n with
  | nil => exact absurd h List.not_mem_nil
  | cons content contents ih =>
    rcases List.mem_append.1 h with h | h
    · obtain ⟨event, hevent, rfl⟩ := List.mem_map.1 h
      exact ⟨content, List.mem_cons_self, hevent⟩
    · obtain ⟨content', hmem, hevent⟩ := ih h
      exact ⟨content', List.mem_cons_of_mem _ hmem, hevent⟩

/-- What a line is read as, if it is a marker. -/
theorem read_of_ofLine {l : Line} {m : Marker} (h : LineContent.ofLine l = .ok (.marker m)) :
    Marker.read (trim l) = .ok (some m) := by
  unfold LineContent.ofLine at h
  dsimp only at h
  split at h
  · obtain ⟨m?, hm, h⟩ := bind_eq_ok.1 h
    cases m? with
    | none => cases Except.ok.inj h
    | some m' =>
      obtain rfl := LineContent.marker.inj (Except.ok.inj h)
      exact hm
  · cases Except.ok.inj h

/-- The markers of a context have a property. -/
def Context.Hands (P : Marker → Prop) (c : Context) : Prop :=
  (∀ m, c.pending? = some m → P m) ∧ ∀ m, c.carried? = some m → P m

/-- The markers of all contexts have a property, and the candidates found have one. -/
structure Handing (P : Marker → Prop) (Q : Candidate → Prop) (r : ReaderState) : Prop where
  current : Context.Hands P r.current
  around : ∀ c ∈ r.around, Context.Hands P c
  found : ∀ c ∈ r.found, Q c

variable {P : Marker → Prop} {Q : Candidate → Prop} {bindings : Lua.Bindings} {r : ReaderState}
  {n : ℕ}

theorem handing_start (P : Marker → Prop) (Q : Candidate → Prop) : start.Handing P Q :=
  ⟨⟨by simp [start, Context.start], by simp [start, Context.start]⟩, by simp [start],
    by simp [start]⟩

namespace Handing

theorem mark (h : r.Handing P Q) {m : Marker} (hm : P m) : (r.mark m).Handing P Q :=
  ⟨⟨fun _ heq => Option.some.inj heq ▸ hm, h.current.2⟩, h.around, h.found⟩

theorem push (h : r.Handing P Q) : r.push.Handing P Q := by
  refine ⟨⟨by simp [ReaderState.push, Context.inner], h.current.1⟩, fun c hc => ?_, h.found⟩
  rcases List.mem_cons.1 hc with rfl | hc
  · exact ⟨by simp [Context.outer], h.current.2⟩
  · exact h.around c hc

theorem pop (h : r.Handing P Q) : r.pop.Handing P Q := by
  unfold ReaderState.pop
  split
  · exact h
  · next c cs hcs =>
    exact ⟨h.around c (hcs ▸ List.mem_cons_self),
      fun c' hc' => h.around c' (hcs ▸ List.mem_cons_of_mem _ hc'), h.found⟩

variable (hcall : ∀ shape ∈ shapes, ∀ call marker? x y line, (∀ m, marker? = some m → P m) →
    Q (.ofCall bindings shape call marker? x y line))

include hcall

theorem recognize (h : r.Handing P Q) (σ : List Char) : (r.recognize bindings n σ).Handing P Q := by
  unfold ReaderState.recognize
  split
  · exact h
  · next shape call hmatch =>
    refine ⟨⟨h.current.1, by simp⟩, h.around, fun c hc => ?_⟩
    rcases List.mem_cons.1 hc with rfl | hc
    · exact hcall shape (Shape.mem_of_matchStatement? hmatch) _ _ _ _ _ h.current.2
    · exact h.found c hc

variable (hhandler : ∀ c shape handler?, Q c → Q (c.withHandler shape handler?))

include hhandler

theorem enter (h : r.Handing P Q) (σ : List Char) : (r.enter bindings n σ).Handing P Q := by
  unfold ReaderState.enter
  split
  · exact h.recognize hcall σ
  · next shape call hawaiting =>
    have hidle : ({ r with current := { r.current with awaiting? := none } }
        : ReaderState).Handing P Q := ⟨h.current, h.around, h.found⟩
    dsimp only
    split
    · next handler hfollows =>
      unfold giveHandler
      split
      · exact hidle
      · next c cs hfound =>
        refine ⟨h.current, h.around, fun c' hc' => ?_⟩
        rcases List.mem_cons.1 hc' with rfl | hc'
        · exact hhandler c shape _ (h.found c (hfound ▸ List.mem_cons_self))
        · exact h.found c' (hfound ▸ List.mem_cons_of_mem _ hc')
    · exact hidle.recognize hcall σ

theorem step (h : r.Handing P Q) {σ : List Char} {r' : ReaderState}
    (hstep : ReaderState.step bindings n r σ = .ok r') : r'.Handing P Q := by
  unfold ReaderState.step at hstep
  split at hstep
  · obtain rfl := Except.ok.inj hstep
    exact h.push
  · split at hstep
    · obtain rfl := Except.ok.inj hstep
      exact h.pop
    · split at hstep
      · obtain ⟨c, hc, hr⟩ := bind_eq_ok.1 hstep
        obtain rfl := Except.ok.inj hr
        obtain ⟨hpending, hcarried⟩ := markers_of_move hc
        exact ⟨⟨hpending ▸ h.current.1, hcarried ▸ h.current.2⟩, h.around, h.found⟩
      · obtain rfl := Except.ok.inj hstep
        split
        · exact h
        · exact h.enter hcall hhandler σ

/-- Events keep it, if their markers have the property. -/
theorem handleAll (h : r.Handing P Q) {es : List (ℕ × Event)}
    (hmarker : ∀ i m, (i, Event.marker m) ∈ es → P m) {r' : ReaderState}
    (hr : es.foldlM (handle bindings) r = .ok r') : r'.Handing P Q := by
  induction es generalizing r with
  | nil =>
    obtain rfl := Except.ok.inj hr
    exact h
  | cons e es ih =>
    rw [List.foldlM_cons] at hr
    obtain ⟨r₁, he, hes⟩ := bind_eq_ok.1 hr
    refine ih ?_ (fun i m hm => hmarker i m (List.mem_cons_of_mem _ hm)) hes
    obtain ⟨i, event⟩ := e
    cases event with
    | marker m =>
      obtain rfl := Except.ok.inj he
      exact h.mark (hmarker i m List.mem_cons_self)
    | statement σ => exact h.step hcall hhandler he

end Handing

end ReaderState

/-- What the statements of a script make of its markers, and handlers leave, every candidate has. -/
theorem forall_of_candidatesOf {text : List Char} {cs : List Candidate}
    (h : candidatesOf text = .ok cs) {Q : Candidate → Prop}
    (hcall : ∀ shape ∈ shapes, ∀ call marker? x y line, (∀ m, marker? = some m → m.Proper) →
      Q (.ofCall (bindingsOf (Text.lines text)) shape call marker? x y line))
    (hhandler : ∀ c shape handler?, Q c → Q (c.withHandler shape handler?)) : ∀ c ∈ cs, Q c := by
  obtain ⟨r, hr, hcs⟩ := bind_eq_ok.1 h
  obtain rfl := Except.ok.inj hcs
  obtain ⟨contents, hall, hfold⟩ := ReaderState.exists_contents_of_readLines hr
  have hmarker : ∀ i m, (i, Event.marker m) ∈ numbered 1 contents → m.Proper := by
    intro i m hm
    obtain ⟨content, hcontent, hevent⟩ := ReaderState.exists_content_of_mem_numbered hm
    obtain ⟨l, -, hl⟩ := exists_of_mem_right hall hcontent
    cases content with
    | marker m' =>
      obtain rfl : m = m' := Event.marker.inj (List.mem_singleton.1 hevent)
      exact Marker.proper_of_read (ReaderState.read_of_ofLine hl)
    | statements σs =>
      obtain ⟨σ, -, heq⟩ := List.mem_map.1 hevent
      cases heq
  have hhanding :=
    (ReaderState.handing_start Marker.Proper Q).handleAll hcall hhandler hmarker hfold
  exact fun c hc => hhanding.found c (List.mem_reverse.1 hc)

/-- What the marker of a candidate gives: an id that is not empty and holds no blank, and a name
that is not empty. -/
structure Candidate.Marked (c : Candidate) : Prop where
  id_ne : ∀ id, c.id? = some id → id.toList ≠ []
  id_plain : ∀ id, c.id? = some id → ∀ ch ∈ id.toList, isBlank ch = false
  name_ne : ∀ name, c.name? = some name → name.toList ≠ []

theorem Candidate.Marked.withHandler {c : Candidate} (h : c.Marked) (shape : Shape)
    (handler? : Option (List Char)) : (c.withHandler shape handler?).Marked := by
  obtain ⟨props, heq⟩ := c.exists_withHandler_eq shape handler?
  rw [heq]
  exact ⟨h.id_ne, h.id_plain, h.name_ne⟩

/-- The id of a candidate is not empty and holds no blank, and its name is not empty. -/
theorem marked_of_candidatesOf {text : List Char} {cs : List Candidate}
    (h : candidatesOf text = .ok cs) : ∀ c ∈ cs, c.Marked := by
  refine forall_of_candidatesOf h (fun shape hs call marker? x y line hm => ?_)
    fun c shape handler? hc => hc.withHandler shape handler?
  refine Candidate.Marked.withHandler ⟨fun id hid => ?_, fun id hid => ?_, fun name hname => ?_⟩ _ _
  · obtain ⟨m, hmarker, hid⟩ := Option.bind_eq_some_iff.1 hid
    exact (hm m hmarker).id_ne id hid
  · obtain ⟨m, hmarker, hid⟩ := Option.bind_eq_some_iff.1 hid
    exact (hm m hmarker).id_plain id hid
  · obtain ⟨m, hmarker, hname⟩ := Option.bind_eq_some_iff.1 hname
    exact (hm m hmarker).name_ne name hname

end SceneScript
