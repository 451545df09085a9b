import SceneScript.Proofs.Script.Assembly
import SceneScript.Proofs.Script.Recognition
import SceneScript.Proofs.Script.Taken

/-!
# Scripts that say nothing outside their blocks

A line is silent when none of its statements makes a candidate (`isSilent`). Wherever it stands, it
leaves the ids found so far as they are, and the block of an element adds the id of the element to
them, also if lines are put in before the last line of the block. So what lines find is a list of
ids that depends on nothing else (`Yields`), and it is put together as the lines are.

Main statement: where the lines outside the blocks are silent, or there are no blocks, the
candidates of the patched script have the ids of the elements, each once
(`Scene.Readable.exists_ids_of_patch`).
-/

namespace SceneScript

open Lua Text ReaderState

/-! ## Silent lines -/

/-- Whether no statement of a line makes a candidate. -/
def isSilent (l : Line) : Bool :=
  match LineContent.ofLine l with
  | .ok (.statements σs) => σs.all fun σ => (matchStatement? σ).isNone
  | _ => true

namespace ReaderState

variable {bindings : Bindings} {n : ℕ} {r r' : ReaderState}

theorem map_id?_giveHandler (r : ReaderState) (shape : Shape) (handler : List Char) :
    (r.giveHandler shape handler).found.map Candidate.id? = r.found.map Candidate.id? := by
  unfold giveHandler
  cases hr : r.found with
  | nil => simp [hr]
  | cons c cs =>
    obtain ⟨props, heq⟩ := c.exists_withHandler_eq shape (some handler)
    simp [heq]

/-- A statement that makes no candidate leaves the ids found so far. -/
theorem map_id?_of_step {σ : List Char} (hσ : matchStatement? σ = none)
    (h : step bindings n r σ = .ok r') :
    r'.found.map Candidate.id? = r.found.map Candidate.id? := by
  have hrecognize : ∀ r : ReaderState, r.recognize bindings n σ = r := fun r => by
    rw [recognize, hσ]
  unfold step at h
  split at h
  · obtain rfl := Except.ok.inj h
    rfl
  · split at h
    · obtain rfl := Except.ok.inj h
      unfold pop
      split <;> rfl
    · split at h
      · obtain ⟨c, -, heq⟩ := bind_eq_ok.1 h
        obtain rfl := Except.ok.inj heq
        rfl
      · obtain rfl := Except.ok.inj h
        split
        · rfl
        · unfold enter
          split
          · rw [hrecognize]
          · dsimp only
            split
            · exact map_id?_giveHandler _ _ _
            · rw [hrecognize]

theorem map_id?_of_foldlM {σs : List (List Char)} (hσs : ∀ σ ∈ σs, matchStatement? σ = none)
    (h : σs.foldlM (step bindings n) r = .ok r') :
    r'.found.map Candidate.id? = r.found.map Candidate.id? := by
  induction σs generalizing r with
  | nil =>
    obtain rfl := Except.ok.inj h
    rfl
  | cons σ σs ih =>
    rw [List.forall_mem_cons] at hσs
    rw [List.foldlM_cons] at h
    obtain ⟨r₁, hr₁, h⟩ := bind_eq_ok.1 h
    rw [ih hσs.2 h, map_id?_of_step hσs.1 hr₁]

end ReaderState

/-! ## What lines yield -/

/-- That lines, wherever they stand, are read as candidates of some ids, if they can be read. -/
def Yields (ids : List String) (ls : List Line) : Prop :=
  ∀ ⦃bindings : Bindings⦄ ⦃n : ℕ⦄ ⦃r r' : ReaderState⦄, readLines bindings n r ls = .ok r' →
    r'.found.map Candidate.id? = (ids.map some).reverse ++ r.found.map Candidate.id?

theorem yields_nil : Yields [] [] := by
  intro bindings n r r' h
  obtain rfl := Except.ok.inj h
  rfl

theorem Yields.append {ids ids' : List String} {ls ls' : List Line} (h : Yields ids ls)
    (h' : Yields ids' ls') : Yields (ids ++ ids') (ls ++ ls') := by
  intro bindings n r r' hread
  rw [readLines_append] at hread
  obtain ⟨r₁, hr₁, hr'⟩ := bind_eq_ok.1 hread
  rw [h' hr', h hr₁, List.map_append, List.reverse_append, List.append_assoc]

/-- A silent line yields nothing. -/
theorem yields_of_isSilent {l : Line} (hl : isSilent l = true) : Yields [] [l] := by
  intro bindings n r r' hread
  obtain ⟨r₁, hr₁, hr'⟩ := bind_eq_ok.1 hread
  obtain rfl := Except.ok.inj hr'
  obtain ⟨content, hcontent, hr₁⟩ := bind_eq_ok.1 hr₁
  rw [isSilent, hcontent] at hl
  cases content with
  | marker m =>
    obtain rfl := Except.ok.inj hr₁
    rfl
  | statements σs => exact map_id?_of_foldlM (by simpa using hl) hr₁

/-- An empty last line makes no difference. -/
theorem yields_concat_nil_iff {ids : List String} {ls : List Line} :
    Yields ids (ls ++ [[]]) ↔ Yields ids ls := by
  refine ⟨fun h bindings n r r' hread => ?_, fun h => ?_⟩
  · have hlast : readLines bindings n r (ls ++ [[]]) = .ok r' := by
      rw [readLines_append_ok hread]
      exact readLines_cons_ok ((IsNoise.blank rfl).readLine_eq bindings r' _) []
    exact h hlast
  · have hlast := h.append (yields_of_isSilent (l := []) rfl)
    rwa [List.append_nil] at hlast

/-! ## Blocks -/

theorem isSilent_of_isStatement {indent σ : List Char} (hindent : indent.all isBlank = true)
    (hσ : IsStatement σ) (hmatch : matchStatement? σ = none) : isSilent (indent ++ σ) = true := by
  have hline := LineContent.ofLine_statement hindent all_isBlank_nil hσ
  rw [List.append_nil] at hline
  simp [isSilent, hline, hmatch]

theorem isSilent_closing {indent : List Char} (hindent : indent.all isBlank = true) :
    isSilent (indent ++ "UiPop()".toList) = true :=
  isSilent_of_isStatement hindent isStatement_closing (by decide +kernel)

/-- The stub of a handler is silent: it starts with a word that no shape starts with. -/
theorem isSilent_handlerStub {name : List Char} (h : isCallee name = true) :
    isSilent (handlerStub name) = true := by
  have hstub := isStatement_handlerStub h
  obtain ⟨hne, hname⟩ := isNameChar_of_isCallee h
  obtain ⟨c, rest, rfl⟩ := List.exists_cons_of_ne_nil hne
  have hc := hname c List.mem_cons_self
  have hlead : leadingName? (trim (handlerStub (c :: rest))) =
      some ("function".toList, some c) := by
    have htake : takeIdentifier? (handlerStub (c :: rest)) =
        some ("function".toList, ' ' :: (c :: rest ++ "() end".toList)) := by
      rw [handlerStub_eq]
      exact takeIdentifier?_append (by decide) (forall_head_cons (by decide))
    rw [hstub.tight.trim, leadingName?, htake, Option.map_some]
    dsimp only
    rw [List.cons_append, trimLeft_space (isBlank_of_isNameChar hc)]
    rfl
  have hmatch : matchStatement? (handlerStub (c :: rest)) = none :=
    Shape.matchStatement?_of_leadingName? hlead (by decide) (by decide)
      (fun heq => ne_of_isNameChar hc (by decide) (Option.some.inj heq))
      (fun heq => ne_of_isNameChar hc (by decide) (Option.some.inj heq))
  exact @isSilent_of_isStatement [] _ all_isBlank_nil hstub hmatch

/-- The block of an element yields its id with all lines but the last. -/
theorem Drawing.yields_dropLast (d : Drawing) {indent : List Char}
    (hindent : indent.all isBlank = true) : Yields [d.element.id] (d.lines indent).dropLast := by
  intro bindings n r r' hread
  obtain ⟨x, y, -, -, rfl⟩ := d.exists_of_readLines_dropLast hindent hread
  rfl

/-! ## Patched scripts -/

/-- What lines yield is put together as they are. -/
theorem assembles_yields : Assembles (fun l => isSilent l = true)
    fun ds ls => Yields (ds.map fun d => d.element.id) ls where
  nil := yields_nil
  line := yields_of_isSilent
  around := by
    intro d indent hindent ds ls h
    have hall := ((d.yields_dropLast hindent).append h).append
      (yields_of_isSilent (isSilent_closing hindent))
    rw [List.append_nil] at hall
    exact hall
  append h h' := List.map_append ▸ h.append h'
  concat_nil_iff := yields_concat_nil_iff

/-- A script without blocks is replaced by one that can be read. -/
theorem Scene.Readable.exists_candidatesOf_patch {s : Scene} (h : s.Readable)
    {text code : List Char} {parts : List Segment}
    (hparts : segments ((LineBreak.ofText text).lines text) = .ok parts)
    (hblock : parts.any Segment.isBlock = false) (hcode : s.patch text = .ok code) :
    ∃ cs, candidatesOf code = .ok cs := by
  obtain ⟨ds, hds⟩ := h.exists_drawings
  obtain ⟨script, cs, hscript, hcs, -⟩ := h.exists_described
  obtain rfl : Drawing.code ds s.handlers = script :=
    Except.ok.inj ((s.script_eq hds).symm.trans hscript)
  have hfeed : ∀ l ∈ Drawing.scriptLines ds s.handlers ++ [[]], '\n' ∉ l := by
    rw [← Drawing.lines_code ds h.isCallee_of_mem_handlers]
    exact LineBreak.lineFeed_notMem_of_mem_lines (b := .lf)
  rw [patch_of_not_block hparts hblock, hscript] at hcode
  obtain rfl : join (LineBreak.ofText text).text (Drawing.scriptLines ds s.handlers ++ [[]]) =
      code := (replaceChar_join hfeed).symm.trans (Except.ok.inj hcode)
  have hread : (candidatesOf (Drawing.code ds s.handlers)).map (·.map Candidate.unnumbered) =
      (candidatesOf (join (LineBreak.ofText text).text (Drawing.scriptLines ds s.handlers ++
        [[]]))).map (·.map Candidate.unnumbered) :=
    (unnumbered_candidatesOf_join .lf hfeed).trans (unnumbered_candidatesOf_join _ hfeed).symm
  rw [hcs] at hread
  obtain ⟨cs', hcs', -⟩ := map_eq_ok.1 hread.symm
  exact ⟨cs', hcs'⟩

/-- Where the lines outside the blocks of a script are silent, or there are no blocks, the
candidates of the patched script have the ids of the elements, each once. -/
theorem Scene.Readable.exists_ids_of_patch {s : Scene} (h : s.Readable) {text code : List Char}
    {parts : List Segment} (hparts : segments ((LineBreak.ofText text).lines text) = .ok parts)
    (hsilent : parts.any Segment.isBlock = true → ∀ l ∈ linesOutside parts, isSilent l = true)
    (hcode : s.patch text = .ok code) {cs : List Candidate} (hcs : candidatesOf code = .ok cs) :
    ∃ ids : List String, ids.Perm s.order ∧ cs.map Candidate.id? = ids.map some := by
  obtain ⟨b, ls, ds, rfl, hfeed, hds, hyields⟩ := h.exists_assembled_patch assembles_yields hparts
    hsilent (by decide +kernel) isSilent_handlerStub hcode
  refine ⟨ds.map fun d => d.element.id, hds.2, ?_⟩
  obtain ⟨r, hr, heq⟩ := exists_readLines_of_join hfeed hcs
  have hsame : ∀ cs : List Candidate, (cs.map Candidate.unnumbered).map Candidate.id? =
      cs.map Candidate.id? := fun cs => List.map_map ..
  rw [← hsame, ← heq, hsame, List.map_reverse, hyields hr]
  simp [ReaderState.start]

end SceneScript
