import TemplateFill.Number.Binary
import TemplateFill.Query.Sorting.Run
import TemplateFill.Query.Sorting.Merge

/-!
# Sorting

Sorting is stable. A list is cut into runs, which are merged two by two until one is left. Which
runs are merged when is laid down too: it decides the result where the order is none, because one
of the values is no number and is neither less nor greater than any other.

Runs wait on a stack. The border between two runs has a power: the more often the list has to be
halved before a cut falls between their middles, the higher it is. Before a run is put on the
stack, runs are merged whose border has a higher power than the new one.
-/

namespace TemplateFill.Query

variable {α : Type}

structure WaitingRun (α : Type) where
  /-- The place at which the run starts. -/
  start : Nat
  items : List α
  /-- The power of the border behind the run. -/
  power : Nat
  deriving Repr

/-- Runs that wait to be merged, the latest first, and the patience of the next merge. -/
structure RunStack (α : Type) where
  waiting : List (WaitingRun α)
  patience : Nat
  deriving Repr

/-- The power of the border between two neighbouring runs in a list of so many items, the first of
which starts at a place: how often the list has to be halved before their middles are apart. -/
def borderPower (total start left right : Nat) : Nat :=
  let part (middle times : Nat) : Nat := middle * Number.twoTo times / (2 * total)
  let first := 2 * start + left
  let second := first + left + right
  ((List.range (total.log2 + 3)).find? fun times => part first times != part second times).getD 0

namespace RunStack

/-- Merge the latest runs as long as their border has a higher power. -/
def lower (less : α → α → Bool) (power : Nat) : List (WaitingRun α) → Nat → RunStack α
  | latest :: before :: rest, patience =>
    if power < before.power then
      let (items, patience) := mergeRuns less patience before.items latest.items
      lower less power (⟨before.start, items, before.power⟩ :: rest) patience
    else ⟨latest :: before :: rest, patience⟩
  | waiting, patience => ⟨waiting, patience⟩
termination_by waiting => waiting.length

/-- Put a run of a list of so many items on the stack. -/
def push (less : α → α → Bool) (total : Nat) (stack : RunStack α) (run : List α) : RunStack α :=
  match stack.waiting with
  | [] => { stack with waiting := [⟨0, run, 0⟩] }
  | latest :: rest =>
    let length := latest.items.length
    let power := borderPower total latest.start length run.length
    let pushed : WaitingRun α := ⟨latest.start + length, run, 0⟩
    let lowered := lower less power (latest :: rest) stack.patience
    match lowered.waiting with
    | [] => { lowered with waiting := [pushed] }
    | latest :: rest =>
      { lowered with waiting := pushed :: { latest with power := power } :: rest }

/-- Merge all runs, the latest first; but if the third one is shorter than the latest, it is merged
with the one between them before. -/
def mergeAll (less : α → α → Bool) : List (WaitingRun α) → Nat → List α
  | [], _ => []
  | [run], _ => run.items
  | [latest, before], patience => (mergeRuns less patience before.items latest.items).1
  | latest :: before :: third :: rest, patience =>
    if third.items.length < latest.items.length then
      let (items, patience) := mergeRuns less patience third.items before.items
      mergeAll less (latest :: ⟨third.start, items, third.power⟩ :: rest) patience
    else
      let (items, patience) := mergeRuns less patience before.items latest.items
      mergeAll less (⟨before.start, items, before.power⟩ :: third :: rest) patience
termination_by waiting => waiting.length

end RunStack

/-- A list in rising order; items that are equal keep their order. -/
def sorted (less : α → α → Bool) (items : List α) : List α :=
  let stack := (runs less (runLength items.length) items).foldl
    (RunStack.push less items.length) ⟨[], worthyLeap⟩
  RunStack.mergeAll less stack.waiting stack.patience

end TemplateFill.Query
