import SceneScript.Proofs.Script.Carried
import SceneScript.Proofs.Script.Segment

/-!
# Who owns a block

The reader of candidates and the finder of blocks decide apart who owns a block. The reader carries
a marker to the next block that is opened; the finder wants a region right behind the marker, and
finds nothing inside the blocks that it has found. Where a region follows the marker, its first
statement opens the block that the reader gives the marker to, and the block is not closed before
the region ends, so a candidate that carries the marker stands in the region
(`le_of_carries`).

Main statement: a candidate with an id stands in a found block of this id, if a region follows the
marker that is carried to it and the marker is in no other found block
(`exists_spans_of_candidatesOf`).
-/

namespace SceneScript

open Lua Text

open ReaderState (LineContent)

/-! ## What lines mean -/

theorem Marker.read_trim (l : Line) : Marker.read (trim l) = Marker.read l := by
  rw [Marker.read, trim_trim, Marker.read]

/-- A line that is no comment is no marker. -/
theorem Marker.read_of_code {l : Line} (h : afterWord? "--".toList (trim l) = none) :
    Marker.read l = .ok none := by
  refine read_of_afterWord? (Option.eq_none_iff_forall_not_mem.2 fun rest hrest => ?_)
  have hword : trim l = Marker.word ++ rest := append_of_afterWord? hrest
  have hdash : Marker.word ++ rest = "--".toList ++ ("TDGUI".toList ++ rest) := rfl
  rw [hword, hdash, afterWord?_append] at h
  cases h

/-- A comment has no code statements. -/
theorem statements_of_comment {l : Line} (h : (afterWord? "--".toList (trim l)).isSome = true) :
    Lua.statements l = [] := by
  obtain ⟨rest, hrest⟩ := Option.isSome_iff_exists.1 h
  obtain ⟨front, back, hl, hfront, -⟩ := exists_eq_trim l
  rw [append_of_afterWord? hrest, List.append_assoc] at hl
  rw [hl]
  exact statements_comment hfront (rest ++ back)

/-- A statement that is written as a comment neither opens nor closes a block. -/
theorem openAfter_comment {s : List Char} (h : (afterWord? "--".toList s).isSome = true)
    (depth : ℕ) : openAfter depth [s] = some depth := by
  obtain ⟨rest, hrest⟩ := Option.isSome_iff_exists.1 h
  obtain rfl := append_of_afterWord? hrest
  rfl

namespace ReaderState.LineContent

/-- What a line means fits the marker that the line is and the statements that it has: a comment has
none, and at most a statement that neither opens nor closes a block is read from it. -/
structure Fits (l : Line) (content : LineContent) : Prop where
  marker : ∀ m, content = .marker m → Marker.read l = .ok (some m)
  read : ∃ marker?, Marker.read l = .ok marker?
  openAfter : ∀ n depth, SceneScript.openAfter depth (statementsOf (content.events.map (n, ·))) =
    SceneScript.openAfter depth (Lua.statements l)
  statements : ∀ σ σs, Lua.statements l = σ :: σs → content = .statements (σ :: σs)

theorem fits {l : Line} {content : LineContent} (h : ofLine l = .ok content) : Fits l content := by
  cases hcode : afterWord? "--".toList (trim l) with
  | none =>
    rw [ofLine_code hcode] at h
    obtain rfl := Except.ok.inj h
    refine ⟨by simp, ⟨none, Marker.read_of_code hcode⟩, fun n depth => ?_, fun σ σs hl => hl ▸ rfl⟩
    have hsame : statementsOf ((events (.statements (Lua.statements l))).map (n, ·)) =
        Lua.statements l := by
      rw [statementsOf, events, List.map_map, List.filterMap_map]
      exact List.filterMap_some
    rw [hsame]
  | some rest =>
    have hcomment : (afterWord? "--".toList (trim l)).isSome = true := by rw [hcode]; rfl
    have hnone := statements_of_comment hcomment
    unfold ofLine at h
    dsimp only at h
    rw [if_pos hcomment, Marker.read_trim] at h
    obtain ⟨marker?, hread, h⟩ := bind_eq_ok.1 h
    cases marker? with
    | some m =>
      obtain rfl := Except.ok.inj h
      refine ⟨fun m' hm' => ?_, ⟨_, hread⟩, fun n depth => by rw [hnone]; rfl, by simp [hnone]⟩
      obtain rfl := LineContent.marker.inj hm'
      exact hread
    | none =>
      obtain rfl := Except.ok.inj h
      refine ⟨by simp, ⟨_, hread⟩, fun n depth => ?_, by simp [hnone]⟩
      rw [hnone]
      split
      · exact openAfter_comment hcomment depth
      · rfl

theorem ofLine_of_blank {l : Line} (h : isBlankText l = true) :
    ofLine l = .ok (.statements []) := by
  have hcode : afterWord? "--".toList (trim l) = none := by rw [trim_eq_nil.2 h]; rfl
  rw [ofLine_code hcode, statements_of_blank h]

end ReaderState.LineContent

open ReaderState.LineContent

section Contents

variable {ls : List Line} {contents : List LineContent}
  (h : List.Forall₂ (fun l content => LineContent.ofLine l = .ok content) ls contents)

include h

/-- Blocks are opened and closed by the events of lines as by the statements that they have. -/
theorem openAfter_numbered (n depth : ℕ) : openAfter depth (statementsOf (numbered n contents)) =
    openAfter depth (ls.flatMap Lua.statements) := by
  induction h generalizing n depth with
  | nil => rfl
  | @cons l content ls contents hl hls ih =>
    rw [numbered, statementsOf_append, openAfter_append, List.flatMap_cons, openAfter_append,
      (fits hl).openAfter]
    exact congrArg (Option.bind _) (funext fun depth' => ih (n + 1) depth')

/-- The events of lines have the numbers of the lines. -/
theorem mem_numbered {n : ℕ} {e : ℕ × Event} (he : e ∈ numbered n contents) :
    n ≤ e.1 ∧ e.1 < n + ls.length := by
  induction h generalizing n with
  | nil => simp [numbered] at he
  | cons hl hls ih =>
    rw [List.length_cons]
    rcases List.mem_append.1 he with he | he
    · obtain ⟨event, -, rfl⟩ := List.mem_map.1 he
      exact ⟨le_rfl, by omega⟩
    · have := ih he
      omega

/-- The events of a leading region start with a statement that opens a block, and they close it. -/
theorem exists_numbered_of_isLeading (hleading : IsLeading ls) (n : ℕ) :
    ∃ j σ es, numbered n contents = (j, .statement σ) :: es ∧ opensBlock σ = true ∧
      openAfter 1 (statementsOf es) = none := by
  obtain ⟨blanks, opening, behind, rfl, hblanks, hstarts, hregion⟩ := hleading
  induction blanks generalizing n contents with
  | nil =>
    cases h with
    | @cons _ content _ contents hl hls =>
      obtain ⟨σ, σs, hσ, hopens⟩ := exists_of_startsRegion hstarts
      obtain rfl := (fits hl).statements σ σs hσ
      refine ⟨n, σ, _, rfl, hopens, ?_⟩
      have hclosed : openAfter 0 (statementsOf (numbered n (.statements (σ :: σs) :: contents))) =
          none := by
        rw [openAfter_numbered (.cons hl hls)]
        exact hregion.openAfter_eq
      exact (if_pos hopens).symm.trans hclosed
  | cons b blanks ih =>
    cases h with
    | @cons _ content _ contents hl hls =>
      rw [ofLine_of_blank (hblanks b List.mem_cons_self)] at hl
      obtain rfl := Except.ok.inj hl
      exact ih (n + 1) hls fun b' hb' => hblanks b' (List.mem_cons_of_mem _ hb')

/-- A marker among the events stands on a line, and the events behind it are those of the lines
behind. -/
theorem exists_of_numbered_eq {n i : ℕ} {m : Marker} {before behind : List (ℕ × Event)}
    (hevents : numbered n contents = before ++ (i, .marker m) :: behind) :
    ∃ front l tail contents', ls = front ++ l :: tail ∧ n + front.length = i ∧
      Marker.read l = .ok (some m) ∧
      List.Forall₂ (fun l content => LineContent.ofLine l = .ok content) tail contents' ∧
      numbered (i + 1) contents' = behind := by
  induction h generalizing n before with
  | nil => simp [numbered] at hevents
  | @cons l content ls contents hl hls ih =>
    have hlater : ∀ before', numbered (n + 1) contents = before' ++ (i, .marker m) :: behind →
        ∃ front l' tail contents', l :: ls = front ++ l' :: tail ∧ n + front.length = i ∧
          Marker.read l' = .ok (some m) ∧
          List.Forall₂ (fun l content => LineContent.ofLine l = .ok content) tail contents' ∧
          numbered (i + 1) contents' = behind := by
      intro before' hbefore'
      obtain ⟨front, l', tail, contents', rfl, hi, h'⟩ := ih hbefore'
      exact ⟨l :: front, l', tail, contents', rfl, by rw [List.length_cons]; omega, h'⟩
    rw [numbered] at hevents
    rcases List.append_eq_append_iff.1 hevents with ⟨before', rfl, hbefore'⟩ | ⟨events, hl', hrest⟩
    · exact hlater before' hbefore'
    · cases events with
      | nil => exact hlater [] hrest.symm
      | cons e events =>
        obtain ⟨rfl, rfl⟩ := List.cons.inj hrest
        have hmem : ((i, .marker m) : ℕ × Event) ∈ content.events.map (n, ·) := by simp [hl']
        obtain ⟨event, hevent, heq⟩ := List.mem_map.1 hmem
        obtain ⟨rfl, rfl⟩ := Prod.mk.inj heq
        cases content with
        | marker m' =>
          obtain rfl := Event.marker.inj (List.mem_singleton.1 hevent)
          obtain ⟨rfl, rfl⟩ : before = [] ∧ events = [] := by
            simpa [LineContent.events, List.singleton_eq_append_iff] using hl'
          exact ⟨[], l, ls, contents, rfl, rfl, (fits hl).marker m rfl, hls, rfl⟩
        | statements σs =>
          obtain ⟨σ, -, hσ⟩ := List.mem_map.1 hevent
          cases hσ

/-- A statement that a marker is carried to stands in the region right behind the marker. -/
theorem le_of_leadingRegion? {region rest : List Line}
    (hregion : leadingRegion? ls = some (region, rest)) {i j n : ℕ} {σ τ : List Char}
    {between inside behind : List (ℕ × Event)}
    (hevents : numbered (i + 1) contents =
      between ++ (j, .statement σ) :: (inside ++ (n, .statement τ) :: behind))
    (hidle : ∀ e ∈ between, e.2.isIdle = true)
    (hdepth : openAfter 1 (statementsOf inside) = some 1) : i < n ∧ n ≤ i + region.length := by
  have hmem : ((n, .statement τ) : ℕ × Event) ∈ numbered (i + 1) contents := by simp [hevents]
  have hbelow := (mem_numbered h hmem).1
  refine ⟨hbelow, not_lt.1 fun hn => ?_⟩
  obtain ⟨inner, outer, rfl, hinner⟩ : ∃ inner outer, contents = inner ++ outer ∧
      List.Forall₂ (fun l content => LineContent.ofLine l = .ok content) region inner := by
    refine ⟨_, _, (List.take_append_drop region.length contents).symm, ?_⟩
    have htake := List.forall₂_take region.length h
    rwa [← append_of_leadingRegion? hregion, List.take_left' rfl] at htake
  obtain ⟨j', σ', es, hes, hopens', hclosed⟩ :=
    exists_numbered_of_isLeading hinner (isLeading_of_leadingRegion? hregion) (i + 1)
  have hnot : (n, .statement τ) ∉ numbered (i + 1) inner := fun hmem' => by
    have := (mem_numbered hinner hmem').2
    dsimp only at this
    omega
  -- so the events of the region come before the statement
  obtain ⟨later, hlater⟩ : ∃ later, between ++ (j, .statement σ) :: inside =
      numbered (i + 1) inner ++ later := by
    rw [numbered_append, ← List.cons_append, ← List.append_assoc] at hevents
    rcases List.append_eq_append_iff.1 hevents with ⟨later, hlater, -⟩ | ⟨more, hmore, hrest⟩
    · exact ⟨later, hlater⟩
    · cases more with
      | nil => exact ⟨[], by simpa using hmore.symm⟩
      | cons e more =>
        obtain ⟨rfl, -⟩ := List.cons.inj hrest
        exact absurd (hmore ▸ List.mem_append_right _ List.mem_cons_self) hnot
  rw [hes, List.cons_append] at hlater
  cases between with
  | nil =>
    obtain ⟨-, rfl⟩ := List.cons.inj hlater
    rw [statementsOf_append, openAfter_append, hclosed] at hdepth
    cases hdepth
  | cons e between =>
    obtain ⟨rfl, -⟩ := List.cons.inj hlater
    have := hidle _ List.mem_cons_self
    rw [Event.isIdle, hopens'] at this
    cases this

end Contents

/-! ## Where blocks are found -/

/-- A marker with an id and a region behind it is the start of a found block, or lies in one. -/
theorem exists_span_of_leadingRegion? {ls front tail region rest : List Line} {l : Line}
    {m : Marker} {id : String} (hread : Marker.read l = .ok (some m)) (hid : m.id? = some id)
    (hregion : leadingRegion? tail = some (region, rest)) {parts : List Segment}
    (hparts : segments ls = .ok parts) (hls : ls = front ++ l :: tail) (n : ℕ) :
    (∃ span ∈ spansFrom n parts, span.id = id ∧ span.start = n + front.length ∧
      span.stop = n + front.length + region.length) ∨
    ∃ span ∈ spansFrom n parts, span.start < n + front.length ∧ n + front.length ≤ span.stop := by
  fun_induction segments ls generalizing front parts n with
  | case1 => simp at hls
  | case2 k =>
    obtain ⟨rfl, heq⟩ : front = [] ∧ [k] = l :: tail := by
      cases front with
      | nil => exact ⟨rfl, hls⟩
      | cons f front => simp at hls
    obtain ⟨-, rfl⟩ := List.cons.inj heq
    simp [leadingRegion?] at hregion
  | case3 => cases hparts
  | case4 k next ls marker? hk howned ih =>
    obtain ⟨parts, hrest, rfl⟩ := map_eq_ok.1 hparts
    cases front with
    | nil =>
      obtain ⟨rfl, rfl⟩ := List.cons.inj hls
      obtain rfl := Except.ok.inj (hk.symm.trans hread)
      have hsome : ownedBlock? (some m) (next :: ls) = some (id, region, rest) :=
        ownedBlock?_eq_some_iff.2 ⟨hid, hregion⟩
      exact absurd (howned.symm.trans hsome) (by simp)
    | cons f front =>
      have := ih hrest (List.cons.inj hls).2 (n + 1)
      rwa [Nat.add_right_comm n 1, Nat.add_assoc n] at this
  | case5 k next ls marker? hk id' region' rest' howned ih =>
    obtain ⟨parts, hrest, rfl⟩ := map_eq_ok.1 hparts
    cases front with
    | nil =>
      obtain ⟨rfl, htail⟩ := List.cons.inj hls
      obtain rfl := Except.ok.inj (hk.symm.trans hread)
      rw [htail] at howned
      obtain ⟨hid', hregion'⟩ := ownedBlock?_eq_some_iff.1 howned
      obtain rfl := Option.some.inj (hid'.symm.trans hid)
      obtain ⟨rfl, -⟩ := Prod.mk.inj (Option.some.inj (hregion'.symm.trans hregion))
      exact .inl ⟨_, List.mem_cons_self, rfl, rfl, rfl⟩
    | cons f front =>
      have happend : region' ++ rest' = front ++ l :: tail :=
        (append_of_ownedBlock? howned).trans (List.cons.inj hls).2
      rcases lt_or_ge front.length region'.length with hlength | hlength
      · refine .inr ⟨_, List.mem_cons_self, ?_⟩
        dsimp only
        rw [List.length_cons]
        omega
      · -- the marker is behind this block
        obtain ⟨front', rfl⟩ : region' <+: front :=
          List.prefix_of_prefix_length_le ⟨rest', happend⟩ ⟨l :: tail, rfl⟩ hlength
        rw [List.append_assoc] at happend
        have hfound := ih hrest (List.append_cancel_left happend) (n + region'.length + 1)
        have hstart : n + region'.length + 1 + front'.length =
            n + (f :: (region' ++ front')).length := by
          rw [List.length_cons, List.length_append]
          omega
        rw [hstart] at hfound
        exact hfound.imp List.exists_mem_cons_of_exists List.exists_mem_cons_of_exists

/-! ## Candidates in blocks -/

/-- A candidate of a script that has an id carries a marker of this id. Where a region follows the
marker, past blank lines, and the marker is in no found block of another one, a block of this id is
found that starts with the marker and has the line of the candidate. -/
theorem exists_spans_of_candidatesOf {text : List Char} {cs : List Candidate}
    (h : candidatesOf text = .ok cs) :
    ∃ contents spans,
      List.Forall₂ (fun l content => LineContent.ofLine l = .ok content) (Text.lines text)
        contents ∧
      blockSpans (Text.lines text) = .ok spans ∧
      ∀ c ∈ cs, ∀ id, c.id? = some id → ∃ i m n, Carries (numbered 1 contents) i m n ∧
        m.id? = some id ∧ c.line = (n : ℤ) ∧
        ((leadingRegion? ((Text.lines text).drop i)).isSome →
          (∀ span ∈ spans, ¬ (span.start + 1 < i ∧ i ≤ span.stop + 1)) →
          ∃ span ∈ spans, span.id = id ∧ span.start + 1 = i ∧ i < n ∧ n ≤ span.stop + 1) := by
  obtain ⟨contents, hall, hcarries⟩ := exists_carries_of_candidatesOf h
  obtain ⟨parts, hparts⟩ := exists_segments (Text.lines text) fun l hl => by
    obtain ⟨content, -, hcontent⟩ := exists_of_mem_left hall hl
    exact (fits hcontent).read
  refine ⟨contents, spansFrom 0 parts, hall, by rw [blockSpans, hparts]; rfl, fun c hc id hid => ?_⟩
  obtain ⟨i, m, n, hcarried, hmid, -, hline⟩ := hcarries c hc id hid
  refine ⟨i, m, n, hcarried, hmid, hline, fun hregion hfree => ?_⟩
  obtain ⟨-, τ, behind, hevents, before', j, σ, inside, rfl, ⟨before, between, rfl, hidle⟩, -,
    hdepth⟩ := hcarried
  simp only [List.append_assoc, List.cons_append] at hevents
  obtain ⟨front, l, tail, contents', hls, rfl, hread, htail, hevents'⟩ :=
    exists_of_numbered_eq hall hevents
  obtain ⟨⟨region, rest⟩, hregion⟩ := Option.isSome_iff_exists.1 hregion
  have hdrop : (Text.lines text).drop (1 + front.length) = tail := by
    rw [hls, Nat.add_comm, ← List.singleton_append, ← List.append_assoc]
    exact List.drop_left' (by simp)
  rw [hdrop] at hregion
  have hle := le_of_leadingRegion? htail hregion hevents' hidle hdepth
  rcases exists_span_of_leadingRegion? hread hmid hregion hparts hls 0 with
    ⟨span, hspan, hspanid, hstart, hstop⟩ | ⟨span, hspan, hnested⟩
  · exact ⟨span, hspan, hspanid, by omega, by omega, by omega⟩
  · exact absurd (by omega) (hfree span hspan)

/-- A script with one marked block inside another. -/
def nestedScript : List Char := ("function draw()\nUiPush()\n--TDGUI id=a type=rect\nUiPush()\n" ++
  "UiRect(1, 1)\n--TDGUI id=b type=rect\nUiPush()\nUiRect(2, 2)\nUiPop()\nUiPop()\nUiPop()\n" ++
  "end\n").toList

theorem candidatesOf_nestedScript : ∃ cs, candidatesOf nestedScript = .ok cs ∧
    cs.map (fun c => (c.id?, c.line)) = [(some "a", 5), (some "b", 8)] := by
  have hcs : (candidatesOf nestedScript).toOption.map
      (List.map fun c => (c.id?, c.line)) = some [(some "a", 5), (some "b", 8)] := by
    decide +kernel
  exact exists_of_toOption_map hcs

theorem blockSpans_nestedScript :
    blockSpans (Text.lines nestedScript) = .ok [⟨"a", 2, 9, []⟩] := by decide +kernel

/-- The outer one of two nested blocks is found. -/
theorem exists_spans_nestedScript : ∃ cs, candidatesOf nestedScript = .ok cs ∧
    cs.map Candidate.id? = [some "a", some "b"] ∧ ∃ contents spans,
      List.Forall₂ (fun l content => LineContent.ofLine l = .ok content) (Text.lines nestedScript)
        contents ∧
      blockSpans (Text.lines nestedScript) = .ok spans ∧
      ∀ c ∈ cs, ∀ id, c.id? = some id → ∃ i m n, Carries (numbered 1 contents) i m n ∧
        m.id? = some id ∧ c.line = (n : ℤ) ∧
        ((leadingRegion? ((Text.lines nestedScript).drop i)).isSome →
          (∀ span ∈ spans, ¬ (span.start + 1 < i ∧ i ≤ span.stop + 1)) →
          ∃ span ∈ spans, span.id = id ∧ span.start + 1 = i ∧ i < n ∧ n ≤ span.stop + 1) := by
  obtain ⟨cs, hcs, hids⟩ := candidatesOf_nestedScript
  have hmap := congrArg (List.map Prod.fst) hids
  rw [List.map_map] at hmap
  exact ⟨cs, hcs, hmap, exists_spans_of_candidatesOf hcs⟩

/-- The inner one of two nested blocks is not found. -/
theorem not_forall_exists_span : ¬ ∀ (text : List Char) (cs : List Candidate)
    (spans : List BlockSpan), candidatesOf text = .ok cs →
    blockSpans (Text.lines text) = .ok spans → ∀ c ∈ cs, ∀ id, c.id? = some id →
    ∃ span ∈ spans, span.id = id ∧ (span.start : ℤ) + 1 ≤ c.line ∧ c.line ≤ span.stop + 1 := by
  intro h
  obtain ⟨cs, hcs, hids⟩ := candidatesOf_nestedScript
  have hb : (some "b", 8) ∈ cs.map fun c => (c.id?, c.line) := by
    rw [hids]
    decide
  obtain ⟨c, hc, hcb⟩ := List.mem_map.1 hb
  obtain ⟨span, hspan, hid, -⟩ := h _ _ _ hcs blockSpans_nestedScript c hc "b" (Prod.mk.inj hcb).1
  obtain rfl := List.mem_singleton.1 hspan
  exact absurd hid (by decide)

end SceneScript
