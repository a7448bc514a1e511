import TemplateFill.Query.Sorting.Border

/-!
# Merging

Two neighbouring runs are merged from the end at which the shorter one is. The merge goes item by
item; when one of the runs wins often enough in a row, the merge leaps over all that it wins, as
long as the leaps are worth while. How often is enough is learnt from one merge for the next.

Under a linear order all of this is a stable merge. It is laid down in detail because there are
values under which the order is none: which items are compared then decides the result.
-/

namespace TemplateFill.Query

variable {α : Type}

/-- A merge that is under way. Both runs are listed in the order in which they are read. -/
structure Merging (α : Type) where
  left : List α
  right : List α
  /-- What has been merged, the latest item first. -/
  merged : List α
  /-- How often in a row a run has to win before the merge leaps. -/
  patience : Nat
  deriving Repr

/-- How the next items are compared. -/
inductive Pace where
  /-- One by one; a run has won so often in a row, the left one or the right one. -/
  | steps (lefts rights : Nat)
  | leaps
  deriving Repr

/-- The length from which on a leap is worth while. -/
def worthyLeap : Nat := 7

namespace Merging

def takeLeft (count : Nat) (state : Merging α) : Merging α :=
  { state with
    left := state.left.drop count
    merged := (state.left.take count).reverse ++ state.merged }

def takeRight (count : Nat) (state : Merging α) : Merging α :=
  { state with
    right := state.right.drop count
    merged := (state.right.take count).reverse ++ state.merged }

/-- Whether an item of the left run is read before one of the right run. Of equal ones, the left
one stands in front. -/
def leftFirst (less : α → α → Bool) (reading : Reading) (x y : α) : Bool :=
  match reading with
  | .fromFront => !less y x
  | .fromBack => less y x

/-- Whether the rest is known: a run is used up, or only the last item of the shorter one is left,
which is the last one of all. -/
def isSettled (reading : Reading) (state : Merging α) : Bool :=
  match reading, state.left, state.right with
  | _, [], _ => true
  | _, _, [] => true
  | .fromFront, [_], _ => true
  | .fromBack, _, [_] => true
  | _, _, _ => false

/-- All items in their order. The rest of the longer run comes before that of the shorter one. -/
def result (reading : Reading) (state : Merging α) : List α :=
  match reading with
  | .fromFront => state.merged.reverse ++ state.right ++ state.left
  | .fromBack => (state.merged.reverse ++ state.left ++ state.right).reverse

/-- Move items if the rest is not known. -/
def unlessSettled (reading : Reading) (move : Merging α → Merging α) (state : Merging α) :
    Merging α :=
  if state.isSettled reading then state else move state

/-- Leap over all items of the left run that come before the next one of the right run. -/
def leapLeft (less : α → α → Bool) (reading : Reading) (state : Merging α) : Merging α :=
  match state.right with
  | [] => state
  | y :: _ => state.takeLeft (border reading (leftFirst less reading · y) state.left)

/-- Leap over all items of the right run that come before the next one of the left run. -/
def leapRight (less : α → α → Bool) (reading : Reading) (state : Merging α) : Merging α :=
  match state.left with
  | [] => state
  | x :: _ => state.takeRight (border reading (fun y => !leftFirst less reading x y) state.right)

/-- Go on until the rest is known. The first argument bounds the number of steps. -/
def settle (less : α → α → Bool) (reading : Reading) : Nat → Pace → Merging α → Merging α
  | 0, _, state => state
  | bound + 1, .steps lefts rights, state =>
    if state.isSettled reading then state
    else if state.patience ≤ max lefts rights then
      settle less reading bound .leaps { state with patience := state.patience + 1 }
    else
      match state.left, state.right with
      | x :: _, y :: _ =>
        if leftFirst less reading x y then
          settle less reading bound (.steps (lefts + 1) 0) (state.takeLeft 1)
        else settle less reading bound (.steps 0 (rights + 1)) (state.takeRight 1)
      | _, _ => state
  | bound + 1, .leaps, state =>
    let start := { state with patience := max 1 (state.patience - 1) }
    let first := start.leapLeft less reading
    let second := first.unlessSettled reading (takeRight 1)
    let third := second.unlessSettled reading (leapRight less reading)
    let last := third.unlessSettled reading (takeLeft 1)
    let lefts := start.left.length - first.left.length
    let rights := second.right.length - third.right.length
    if last.isSettled reading then last
    else if worthyLeap ≤ max lefts rights then settle less reading bound .leaps last
    else settle less reading bound (.steps 0 0) { last with patience := last.patience + 1 }

/-- Merge two runs that stand in the way of each other: the first item of the right one comes
first of all, and the last item of the left one last. -/
def finish (less : α → α → Bool) (patience : Nat) (left right : List α) : List α × Nat :=
  let bound := 2 * (left.length + right.length)
  let (reading, start) :=
    if left.length ≤ right.length then
      (Reading.fromFront, takeRight 1 ⟨left, right, [], patience⟩)
    else (Reading.fromBack, takeLeft 1 ⟨left.reverse, right.reverse, [], patience⟩)
  let state := settle less reading bound (.steps 0 0) start
  (state.result reading, state.patience)

end Merging

/-- Merge two neighbouring runs, with the patience before and after. Items at the outer ends that
are in their place already stay there. -/
def mergeRuns (less : α → α → Bool) (patience : Nat) (left right : List α) : List α × Nat :=
  match right.head?, left.getLast? with
  | some first, some last =>
    let before := border .fromFront (fun x => !less first x) left
    let behind := border .fromBack (fun y => !less y last) right.reverse
    let inner := right.take (right.length - behind)
    if left.length ≤ before || inner.isEmpty then (left ++ right, patience)
    else
      let (middle, patience) := Merging.finish less patience (left.drop before) inner
      (left.take before ++ middle ++ right.drop (right.length - behind), patience)
  | _, _ => (left ++ right, patience)

end TemplateFill.Query
