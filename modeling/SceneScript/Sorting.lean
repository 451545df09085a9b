/-!
# Sorting by insertion

A list is sorted by a comparison that may find two values to have no order, and then there is no
result. The values in front that are in order already, or in the opposite one, are the first run;
every value after it is put into its place among those before it, which is found by bisection.
Equal values keep their order.

With a comparison that is an order the result is the sorted list. With one that is none, such as
that of numbers among which one is not-a-number, the result still is the one that these steps give.
-/

namespace SceneScript.Sorting

variable {α : Type} (before? : α → α → Option Bool)

/-- The values up to the first one that comes before the one ahead of it, and the rest. -/
def climb (last : α) : List α → Option (List α × List α)
  | [] => some ([], [])
  | v :: vs => do
    if ← before? v last then return ([], v :: vs)
    let (run, rest) ← climb v vs
    return (v :: run, rest)

/-- The values up to the first one that does not come before the one ahead of it, and the rest. -/
def descend (last : α) : List α → Option (List α × List α)
  | [] => some ([], [])
  | v :: vs => do
    if ← before? v last then
      let (run, rest) ← descend v vs
      return (v :: run, rest)
    return ([], v :: vs)

/-- The first run, in order, and the rest. -/
def firstRun : List α → Option (List α × List α)
  | v :: w :: vs => do
    if ← before? w v then
      let (run, rest) ← descend before? w vs
      return ((v :: w :: run).reverse, rest)
    let (run, rest) ← climb before? w vs
    return (v :: w :: run, rest)
  | vs => some (vs, [])

/-- The place of a value among sorted ones, between two places: behind all that it does not come
before. -/
def place? (sorted : Array α) (v : α) (low high : Nat) : Option Nat :=
  if low < high then
    let middle := (low + high) / 2
    match sorted[middle]? with
    | none => some high
    | some w =>
      match before? v w with
      | none => none
      | some true => place? sorted v low middle
      | some false => place? sorted v (middle + 1) high
  else some low
termination_by high - low

/-- Sorted values with some others put in, one after the other. -/
def insertAll (sorted : Array α) : List α → Option (Array α)
  | [] => some sorted
  | v :: vs =>
    match place? before? sorted v 0 sorted.size with
    | none => none
    | some i => insertAll (sorted.insertIdxIfInBounds i v) vs

/-- The values in order, if they have one. -/
def sort? (vs : List α) : Option (List α) := do
  let (run, rest) ← firstRun before? vs
  let sorted ← insertAll before? run.toArray rest
  return sorted.toList

end SceneScript.Sorting
