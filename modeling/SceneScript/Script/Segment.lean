import SceneScript.Script.Block
import SceneScript.Script.Statement

/-!
# Owned blocks in a script

The lines of a script fall into segments: blocks, each owned by the element that its marker names,
and the lines between them. A marker owns the region that starts, past blank lines, with a line
whose first statement opens a block, and that ends on the line where that block is closed. A marker
without an id, or without such a region, is a line like any other, and so are markers inside a
block.

`lines_segments` says that the segments of a script hold its lines, all of them and in order.
-/

namespace SceneScript

/-! ## Regions -/

/-- How many blocks are open after some statements, the first of them inside that many; nothing
when the last one is closed on the way. -/
def openAfter : Nat → List (List Char) → Option Nat
  | depth, [] => some depth
  | depth, statement :: rest =>
    if opensBlock statement then openAfter (depth + 1) rest
    else if closesBlock statement then
      if depth ≤ 1 then none else openAfter (depth - 1) rest
    else openAfter depth rest

/-- Lines cut after the one on which the last of some open blocks is closed. -/
def region? : Nat → List Line → Option (List Line × List Line)
  | _, [] => none
  | depth, l :: ls =>
    match openAfter depth (Lua.statements l) with
    | none => some ([l], ls)
    | some depth => (region? depth ls).map (fun r => (l :: r.1, r.2))

/-- Whether the first statement of a line opens a block. -/
def startsRegion (l : Line) : Bool := ((Lua.statements l).head?.map opensBlock).getD false

/-- The region at the front of some lines, past blank lines, and the lines after it. -/
def leadingRegion? (ls : List Line) : Option (List Line × List Line) :=
  match ls with
  | [] => none
  | l :: rest =>
    if Text.isBlankText l then (leadingRegion? rest).map (fun r => (l :: r.1, r.2))
    else if startsRegion l then region? 0 (l :: rest)
    else none

theorem append_of_region? {depth : Nat} {ls region rest : List Line}
    (h : region? depth ls = some (region, rest)) : region ++ rest = ls := by
  induction ls generalizing depth region with
  | nil => simp [region?] at h
  | cons l ls ih =>
    rw [region?] at h
    split at h
    · obtain ⟨rfl, rfl⟩ := Prod.mk.inj (Option.some.inj h)
      rfl
    · obtain ⟨r, hr, he⟩ := Option.map_eq_some_iff.1 h
      obtain ⟨rfl, rfl⟩ := Prod.mk.inj he
      rw [List.cons_append, ih hr]

theorem append_of_leadingRegion? {ls region rest : List Line}
    (h : leadingRegion? ls = some (region, rest)) : region ++ rest = ls := by
  induction ls generalizing region with
  | nil => simp [leadingRegion?] at h
  | cons l ls ih =>
    rw [leadingRegion?] at h
    split at h
    · obtain ⟨r, hr, he⟩ := Option.map_eq_some_iff.1 h
      obtain ⟨rfl, rfl⟩ := Prod.mk.inj he
      rw [List.cons_append, ih hr]
    · split at h
      · exact append_of_region? h
      · exact absurd h (by simp)

/-! ## Segments -/

/-- A part of a script: a line outside all blocks, or a block with its marker and its owner. -/
inductive Segment where
  | line (l : Line)
  | block (id : String) (marker : Line) (region : List Line)
  deriving DecidableEq

/-- The lines of a segment. -/
def Segment.lines : Segment → List Line
  | .line l => [l]
  | .block _ marker region => marker :: region

/-- The owner of a marker, if it names one. -/
def Marker.owner? (marker? : Option Marker) : Option String := marker?.bind Marker.id?

/-- The block that a marker owns, given the lines after it: its owner, its region, and the lines
after that. -/
def ownedBlock? (marker? : Option Marker) (ls : List Line) :
    Option (String × List Line × List Line) :=
  match Marker.owner? marker?, leadingRegion? ls with
  | some id, some (region, rest) => some (id, region, rest)
  | _, _ => none

theorem append_of_ownedBlock? {marker? : Option Marker} {ls region rest : List Line} {id : String}
    (h : ownedBlock? marker? ls = some (id, region, rest)) : region ++ rest = ls := by
  unfold ownedBlock? at h
  split at h
  · next hr =>
    simp only [Option.some.injEq, Prod.mk.injEq] at h
    obtain ⟨rfl, rfl, rfl⟩ := h
    exact append_of_leadingRegion? hr
  · exact absurd h (by simp)

/-- The segments of a script. The last line can own nothing, so it is not read as a marker. -/
def segments (ls : List Line) : Except NumberError (List Segment) :=
  match ls with
  | [] => .ok []
  | [l] => .ok [.line l]
  | l :: next :: ls =>
    match Marker.read l with
    | .error e => .error e
    | .ok marker? =>
      match _h : ownedBlock? marker? (next :: ls) with
      | none => (segments (next :: ls)).map (.line l :: ·)
      | some (id, region, rest) => (segments rest).map (.block id l region :: ·)
termination_by ls.length
decreasing_by
  · simp
  · have := congrArg List.length (append_of_ownedBlock? _h)
    simp only [List.length_append, List.length_cons] at this ⊢
    omega

/-- The segments of a script hold its lines, in order. -/
theorem lines_segments {ls : List Line} {parts : List Segment} (h : segments ls = .ok parts) :
    parts.flatMap Segment.lines = ls := by
  fun_induction segments ls generalizing parts with
  | case1 =>
    obtain rfl := Except.ok.inj h
    rfl
  | case2 l =>
    obtain rfl := Except.ok.inj h
    rfl
  | case3 => simp at h
  | case4 l next ls marker? hm ho ih =>
    cases hs : segments (next :: ls) with
    | error e => simp [hs, Except.map] at h
    | ok rest =>
      simp only [hs, Except.map, Except.ok.injEq] at h
      subst h
      simp [Segment.lines, ih hs]
  | case5 l next ls marker? hm id region rest ho ih =>
    cases hs : segments rest with
    | error e => simp [hs, Except.map] at h
    | ok parts' =>
      simp only [hs, Except.map, Except.ok.injEq] at h
      subst h
      simp [Segment.lines, ih hs, append_of_ownedBlock? ho]

/-! ## Positions -/

/-- Where a block stands: its owner, its first and last lines counted from zero, and the indent of
its marker. -/
structure BlockSpan where
  /-- The id on the marker. -/
  id : String
  /-- The line of the marker. -/
  start : Nat
  /-- The line on which the block is closed. -/
  stop : Nat
  /-- The indent of the marker. -/
  indent : List Char
  deriving DecidableEq, Repr

/-- The positions of the blocks among segments that start at a line. -/
def spansFrom : Nat → List Segment → List BlockSpan
  | _, [] => []
  | n, .line _ :: rest => spansFrom (n + 1) rest
  | n, .block id marker region :: rest =>
    ⟨id, n, n + region.length, Text.indentOf marker⟩ :: spansFrom (n + region.length + 1) rest

/-- The positions of the blocks of a script. -/
def blockSpans (ls : List Line) : Except NumberError (List BlockSpan) :=
  (segments ls).map (spansFrom 0)

end SceneScript
