import Mathlib.Data.List.Perm.Basic
import TemplateFill.Query.Sorting

/-!
# Sorting keeps the items

Whatever is less than what, a sorted list has the items of the list that is sorted, each of them
as often. For each step moves items and neither makes nor loses any.
-/

namespace TemplateFill.Query

open List (Perm)

variable {α : Type} (less : α → α → Bool)

/-! ### Runs -/

theorem borderBetween_le (reading : Reading) (p : α → Bool) (items : List α) {low high : Nat}
    (le : low ≤ high) : borderBetween reading p items low high ≤ high := by
  fun_induction borderBetween reading p items low high with
  | case1 low high below middle _ ih =>
    have := reading.middle_lt (Nat.sub_pos_of_lt below)
    exact ih (by omega)
  | case2 low high below middle _ ih =>
    have := reading.middle_lt (Nat.sub_pos_of_lt below)
    exact Nat.le_trans (ih (by omega)) (by omega)
  | case3 low high => exact le

theorem insertSorted_perm (items : List α) (x : α) :
    Perm (insertSorted less items x) (x :: items) :=
  List.perm_insertIdx x items (borderBetween_le _ _ _ (Nat.zero_le _))

theorem foldl_insertSorted_perm (run items : List α) :
    Perm (items.foldl (insertSorted less) run) (items ++ run) := by
  induction items generalizing run with
  | nil => exact .refl _
  | cons x items ih =>
    rw [List.foldl_cons]
    calc
      Perm _ (items ++ insertSorted less run x) := ih _
      Perm _ (items ++ x :: run) := (insertSorted_perm less run x).append_left items
      Perm _ (x :: items ++ run) := List.perm_middle

theorem takeRising_append (last : α) (items : List α) :
    (takeRising less last items).1 ++ (takeRising less last items).2 = items := by
  induction items generalizing last with
  | nil => rfl
  | cons x rest ih =>
    rw [takeRising]
    split
    · rfl
    · exact congrArg (x :: ·) (ih x)

theorem takeFalling_append (last : α) (items : List α) :
    (takeFalling less last items).1 ++ (takeFalling less last items).2 = items := by
  induction items generalizing last with
  | nil => rfl
  | cons x rest ih =>
    rw [takeFalling]
    split
    · exact congrArg (x :: ·) (ih x)
    · rfl

theorem takeRun_perm (items : List α) :
    Perm ((takeRun less items).1 ++ (takeRun less items).2) items := by
  unfold takeRun
  split
  · rename_i x y rest
    split
    · have whole := takeFalling_append less y rest
      calc
        Perm _ ((x :: y :: (takeFalling less y rest).1) ++ (takeFalling less y rest).2) :=
          (List.reverse_perm _).append_right _
        _ = x :: y :: rest := congrArg (x :: y :: ·) whole
    · exact .of_eq (congrArg (x :: y :: ·) (takeRising_append less y rest))
  · exact .of_eq (List.append_nil _)

theorem runs_perm (length : Nat) (items : List α) :
    Perm (runs less length items).flatten items := by
  fun_induction runs less length items with
  | case1 => exact .refl _
  | case2 first rest taken missing ih =>
    rw [List.flatten_cons]
    calc
      Perm _ ((taken.2.take missing ++ taken.1) ++ taken.2.drop missing) :=
        (foldl_insertSorted_perm less _ _).append ih
      Perm _ ((taken.1 ++ taken.2.take missing) ++ taken.2.drop missing) :=
        List.perm_append_comm.append_right _
      _ = taken.1 ++ taken.2 := by rw [List.append_assoc, List.take_append_drop]
      Perm _ (first :: rest) := takeRun_perm less _

/-! ### Merges -/

namespace Merging

/-- All items of a merge that is under way. -/
def held (state : Merging α) : List α := state.left ++ (state.right ++ state.merged)

variable {state : Merging α}

theorem takeLeft_perm (count : Nat) : Perm (state.takeLeft count).held state.held := by
  have moved := List.take_append_drop count state.left
  calc
    Perm (state.left.drop count ++
        (state.right ++ ((state.left.take count).reverse ++ state.merged)))
        (state.left.drop count ++ ((state.left.take count).reverse ++
          (state.right ++ state.merged))) :=
      (List.perm_append_comm_assoc _ _ _).append_left _
    Perm _ ((state.left.take count).reverse ++ (state.left.drop count ++
        (state.right ++ state.merged))) := List.perm_append_comm_assoc _ _ _
    Perm _ (state.left.take count ++ (state.left.drop count ++ (state.right ++ state.merged))) :=
      (List.reverse_perm _).append_right _
    _ = state.held := by rw [← List.append_assoc, moved, held]

theorem takeRight_perm (count : Nat) : Perm (state.takeRight count).held state.held := by
  have moved := List.take_append_drop count state.right
  refine Perm.append_left state.left ?_
  calc
    Perm (state.right.drop count ++ ((state.right.take count).reverse ++ state.merged))
        ((state.right.take count).reverse ++ (state.right.drop count ++ state.merged)) :=
      List.perm_append_comm_assoc _ _ _
    Perm _ (state.right.take count ++ (state.right.drop count ++ state.merged)) :=
      (List.reverse_perm _).append_right _
    _ = state.right ++ state.merged := by rw [← List.append_assoc, moved]

theorem unlessSettled_perm (reading : Reading) {move : Merging α → Merging α}
    (keeps : Perm (move state).held state.held) :
    Perm (state.unlessSettled reading move).held state.held := by
  rw [unlessSettled]
  split
  · exact .refl _
  · exact keeps

theorem leapLeft_perm (reading : Reading) :
    Perm (state.leapLeft less reading).held state.held := by
  rw [leapLeft]
  split
  · exact .refl _
  · exact takeLeft_perm _

theorem leapRight_perm (reading : Reading) :
    Perm (state.leapRight less reading).held state.held := by
  rw [leapRight]
  split
  · exact .refl _
  · exact takeRight_perm _

theorem leaps_perm (reading : Reading) (state : Merging α) :
    Perm ((((state.leapLeft less reading).unlessSettled reading (takeRight 1)).unlessSettled reading
      (leapRight less reading)).unlessSettled reading (takeLeft 1)).held state.held :=
  calc
    Perm _ _ := unlessSettled_perm reading (takeLeft_perm 1)
    Perm _ _ := unlessSettled_perm reading (leapRight_perm less reading)
    Perm _ _ := unlessSettled_perm reading (takeRight_perm 1)
    Perm _ _ := leapLeft_perm less reading

/-- How patient a merge is changes none of its items, so each step keeps what is held. -/
theorem settle_perm (reading : Reading) (bound : Nat) (pace : Pace) (state : Merging α) :
    Perm (settle less reading bound pace state).held state.held := by
  induction bound generalizing pace state with
  | zero => exact .refl _
  | succ bound ih =>
    cases pace with
    | steps lefts rights =>
      rw [settle]
      split
      · exact .refl _
      · split
        · exact ih _ _
        · split
          · split
            · exact (ih _ _).trans (takeLeft_perm 1)
            · exact (ih _ _).trans (takeRight_perm 1)
          · exact .refl _
    | leaps =>
      have leapt : Perm _ state.held :=
        leaps_perm less reading { state with patience := max 1 (state.patience - 1) }
      rw [settle]
      dsimp only
      split
      · exact leapt
      · split
        · exact (ih _ _).trans leapt
        · exact (ih _ _).trans leapt

theorem result_perm (reading : Reading) (state : Merging α) :
    Perm (state.result reading) state.held := by
  cases reading with
  | fromFront =>
    calc
      Perm (state.merged.reverse ++ state.right ++ state.left)
          (state.left ++ (state.merged.reverse ++ state.right)) := List.perm_append_comm
      Perm _ (state.left ++ (state.right ++ state.merged.reverse)) :=
        List.perm_append_comm.append_left _
      Perm _ state.held := ((List.reverse_perm _).append_left _).append_left _
  | fromBack =>
    calc
      Perm (state.merged.reverse ++ state.left ++ state.right).reverse
          (state.merged.reverse ++ state.left ++ state.right) := List.reverse_perm _
      _ = state.merged.reverse ++ (state.left ++ state.right) := List.append_assoc _ _ _
      Perm _ (state.left ++ state.right ++ state.merged.reverse) := List.perm_append_comm
      _ = state.left ++ (state.right ++ state.merged.reverse) := List.append_assoc _ _ _
      Perm _ state.held := ((List.reverse_perm _).append_left _).append_left _

theorem finish_perm (patience : Nat) (left right : List α) :
    Perm (finish less patience left right).1 (left ++ right) := by
  unfold finish
  dsimp only
  split
  · calc
      Perm _ _ := result_perm _ _
      Perm _ _ := settle_perm less _ _ _ _
      Perm _ (left ++ (right ++ [])) := takeRight_perm 1
      _ = left ++ right := by rw [List.append_nil]
  · calc
      Perm _ _ := result_perm _ _
      Perm _ _ := settle_perm less _ _ _ _
      Perm _ (left.reverse ++ (right.reverse ++ [])) := takeLeft_perm 1
      Perm _ (left ++ right) := by
        rw [List.append_nil]
        exact (List.reverse_perm _).append (List.reverse_perm _)

end Merging

theorem mergeRuns_perm (patience : Nat) (left right : List α) :
    Perm (mergeRuns less patience left right).1 (left ++ right) := by
  unfold mergeRuns
  split
  · rename_i first last _ _
    dsimp only
    split
    · exact .refl _
    · have front := List.take_append_drop
        (border .fromFront (fun x => !less first x) left) left
      have back := List.take_append_drop
        (right.length - border .fromBack (fun y => !less y last) right.reverse) right
      generalize border .fromFront (fun x => !less first x) left = before at *
      generalize right.length - border .fromBack (fun y => !less y last) right.reverse = kept at *
      calc
        Perm (left.take before ++ _ ++ right.drop kept)
            (left.take before ++ (left.drop before ++ right.take kept) ++ right.drop kept) :=
          ((Merging.finish_perm less patience _ _).append_left _).append_right _
        _ = left.take before ++ left.drop before ++ (right.take kept ++ right.drop kept) := by
          simp only [List.append_assoc]
        _ = left ++ right := by rw [front, back]
  · exact .refl _

/-! ### The stack -/

namespace RunStack

def itemsOf (waiting : List (WaitingRun α)) : List α := waiting.flatMap (·.items)

/-- Two runs hold the same items when they are merged. -/
theorem itemsOf_merged {latest before merged : WaitingRun α} {patience patience' : Nat}
    (isMerged : mergeRuns less patience before.items latest.items = (merged.items, patience'))
    (rest : List (WaitingRun α)) :
    Perm (itemsOf (merged :: rest)) (itemsOf (latest :: before :: rest)) := by
  have perm := mergeRuns_perm less patience before.items latest.items
  rw [isMerged] at perm
  calc
    Perm (merged.items ++ itemsOf rest) (before.items ++ latest.items ++ itemsOf rest) :=
      perm.append_right _
    Perm _ (latest.items ++ before.items ++ itemsOf rest) := List.perm_append_comm.append_right _
    _ = latest.items ++ (before.items ++ itemsOf rest) := List.append_assoc _ _ _

theorem lower_perm (power : Nat) (waiting : List (WaitingRun α)) (patience : Nat) :
    Perm (itemsOf (lower less power waiting patience).waiting) (itemsOf waiting) := by
  fun_induction lower less power waiting patience with
  | case1 latest before rest patience _ items patience' isMerged ih =>
    exact ih.trans (itemsOf_merged less isMerged rest)
  | case2 => exact .refl _
  | case3 => exact .refl _

theorem push_perm (total : Nat) (stack : RunStack α) (run : List α) :
    Perm (itemsOf (stack.push less total run).waiting) (run ++ itemsOf stack.waiting) := by
  unfold push
  split
  · rename_i isEmpty
    rw [isEmpty]
    exact .refl _
  · rename_i latest rest isStack
    have lowered := lower_perm less (borderPower total latest.start latest.items.length run.length)
      (latest :: rest) stack.patience
    rw [isStack]
    dsimp only
    split
    · rename_i isLowered
      rw [isLowered] at lowered
      exact lowered.append_left run
    · rename_i isLowered
      rw [isLowered] at lowered
      exact lowered.append_left run

theorem mergeAll_perm (waiting : List (WaitingRun α)) (patience : Nat) :
    Perm (mergeAll less waiting patience) (itemsOf waiting) := by
  fun_induction mergeAll less waiting patience with
  | case1 => exact .refl _
  | case2 run => exact .of_eq (List.append_nil _).symm
  | case3 latest before patience =>
    calc
      Perm _ (before.items ++ latest.items) := mergeRuns_perm less _ _ _
      Perm _ (latest.items ++ before.items) := List.perm_append_comm
      _ = latest.items ++ (before.items ++ []) := by rw [List.append_nil]
  | case4 latest before third rest patience _ items patience' isMerged ih =>
    exact ih.trans ((itemsOf_merged less isMerged rest).append_left latest.items)
  | case5 latest before third rest patience _ items patience' isMerged ih =>
    exact ih.trans (itemsOf_merged less isMerged (third :: rest))

theorem foldl_push_perm (total : Nat) (stack : RunStack α) (runs : List (List α)) :
    Perm (itemsOf (runs.foldl (push less total) stack).waiting)
      (runs.flatten ++ itemsOf stack.waiting) := by
  induction runs generalizing stack with
  | nil => exact .refl _
  | cons run runs ih =>
    rw [List.foldl_cons, List.flatten_cons]
    calc
      Perm _ (runs.flatten ++ itemsOf (stack.push less total run).waiting) := ih _
      Perm _ (runs.flatten ++ (run ++ itemsOf stack.waiting)) :=
        (push_perm less total stack run).append_left _
      Perm _ (run ++ (runs.flatten ++ itemsOf stack.waiting)) := List.perm_append_comm_assoc _ _ _
      _ = run ++ runs.flatten ++ itemsOf stack.waiting := (List.append_assoc _ _ _).symm

end RunStack

/-- Sorting keeps the items, whatever is less than what. -/
theorem sorted_perm (items : List α) : Perm (sorted less items) items :=
  calc
    Perm _ _ := RunStack.mergeAll_perm less _ _
    Perm _ _ := RunStack.foldl_push_perm less _ _ _
    _ = (runs less (runLength items.length) items).flatten := List.append_nil _
    Perm _ items := runs_perm less _ items

end TemplateFill.Query
