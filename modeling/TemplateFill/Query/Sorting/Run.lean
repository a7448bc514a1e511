import TemplateFill.Query.Sorting.Border

/-!
# Runs

A list is a sequence of runs, each of which rises or falls. A falling run is reversed, and a short
one is extended: the items behind it go to their places in it, one after the other. Equal items
keep their order, because a run falls only if each item is less than the one before it.
-/

namespace TemplateFill.Query

variable {α : Type}

/-- The items at the front none of which is less than the one before it, and the rest. -/
def takeRising (less : α → α → Bool) (last : α) : List α → List α × List α
  | [] => ([], [])
  | x :: rest =>
    if less x last then ([], x :: rest)
    else
      let (run, rest) := takeRising less x rest
      (x :: run, rest)

/-- The items at the front each of which is less than the one before it, and the rest. -/
def takeFalling (less : α → α → Bool) (last : α) : List α → List α × List α
  | [] => ([], [])
  | x :: rest =>
    if less x last then
      let (run, rest) := takeFalling less x rest
      (x :: run, rest)
    else ([], x :: rest)

/-- The run at the front of a list in rising order, and the rest. -/
def takeRun (less : α → α → Bool) : List α → List α × List α
  | x :: y :: rest =>
    if less y x then
      let (run, rest) := takeFalling less y rest
      ((x :: y :: run).reverse, rest)
    else
      let (run, rest) := takeRising less y rest
      (x :: y :: run, rest)
  | short => (short, [])

theorem length_takeRising_le (less : α → α → Bool) (last : α) (items : List α) :
    (takeRising less last items).2.length ≤ items.length := by
  induction items generalizing last with
  | nil => simp [takeRising]
  | cons x rest ih =>
    have := ih x
    simp only [takeRising, List.length_cons]
    split
    · simp
    · exact Nat.le_succ_of_le this

theorem length_takeFalling_le (less : α → α → Bool) (last : α) (items : List α) :
    (takeFalling less last items).2.length ≤ items.length := by
  induction items generalizing last with
  | nil => simp [takeFalling]
  | cons x rest ih =>
    have := ih x
    simp only [takeFalling, List.length_cons]
    split
    · exact Nat.le_succ_of_le this
    · simp

theorem length_takeRun_lt (less : α → α → Bool) (first : α) (rest : List α) :
    (takeRun less (first :: rest)).2.length < (first :: rest).length := by
  cases rest with
  | nil => simp [takeRun]
  | cons y rest =>
    have rising := length_takeRising_le less y rest
    have falling := length_takeFalling_le less y rest
    simp only [takeRun, List.length_cons]
    split <;> dsimp only <;> omega

/-- A sorted list with one more item, which goes behind all that it is not less than. -/
def insertSorted (less : α → α → Bool) (items : List α) (x : α) : List α :=
  items.insertIdx (borderBetween .fromFront (fun y => !less x y) items 0 items.length) x

/-- The runs of a list, each of which is extended to a length if it is shorter. -/
def runs (less : α → α → Bool) (length : Nat) (items : List α) : List (List α) :=
  match items with
  | [] => []
  | first :: rest =>
    let taken := takeRun less (first :: rest)
    let missing := length - taken.1.length
    (taken.2.take missing).foldl (insertSorted less) taken.1 ::
      runs less length (taken.2.drop missing)
termination_by items.length
decreasing_by
  have := length_takeRun_lt less first rest
  simp only [List.length_drop]
  omega

/-- The length below which a list is a single run. -/
def shortLength : Nat := 64

/-- The length that runs are extended to in a list of so many items: its length is divided by a
power of two, and rounded up. -/
def runLength (count : Nat) : Nat :=
  halved 0 count
where
  /-- The length for what has been halved; whether something was lost is counted. -/
  halved (lost count : Nat) : Nat :=
    if count < shortLength then count + lost else halved (max lost (count % 2)) (count / 2)
  termination_by count
  decreasing_by simp only [shortLength] at *; omega

end TemplateFill.Query
