/-!
# Borders

The border of a list, for a predicate that holds up to some place, is the number of items in front
of that place. It is found by leaps and by halving. Where the predicate does not hold up to one
place alone, the places that are looked at decide which border is found, so they are laid down.
-/

namespace TemplateFill.Query

variable {α : Type}

/-- The end that the items of a list are read from. -/
inductive Reading where
  | fromFront
  | fromBack
  deriving Repr, DecidableEq

/-- The middle of a stretch of so many items. Of two, the one further back is taken. -/
def Reading.middle (reading : Reading) (count : Nat) : Nat :=
  match reading with
  | .fromFront => count / 2
  | .fromBack => (count - 1) / 2

theorem Reading.middle_lt (reading : Reading) {count : Nat} (h : 0 < count) :
    reading.middle count < count := by
  cases reading <;> simp only [middle] <;> omega

/-- The border between two places, found by halving. -/
def borderBetween (reading : Reading) (p : α → Bool) (items : List α) (low high : Nat) : Nat :=
  if _h : low < high then
    let middle := low + reading.middle (high - low)
    if items[middle]?.any p then borderBetween reading p items (middle + 1) high
    else borderBetween reading p items low middle
  else low
termination_by high - low
decreasing_by
  · have := reading.middle_lt (Nat.sub_pos_of_lt _h); omega
  · have := reading.middle_lt (Nat.sub_pos_of_lt _h); omega

/-- Leap from one place to another, each time about twice as far, as long as `p` holds there: the
last place at which it does, and the next one, which is at most the end. -/
def leap (p : α → Bool) (items : List α) (last next : Nat) : Nat × Nat :=
  if h : next < items.length then
    if p items[next] then leap p items next (2 * next + 1) else (last, next)
  else (last, items.length)
termination_by items.length - next

/-- The border of a list, found by leaps and then by halving. -/
def border (reading : Reading) (p : α → Bool) (items : List α) : Nat :=
  if items.head?.any p then
    let (last, next) := leap p items 0 1
    borderBetween reading p items (last + 1) next
  else 0

end TemplateFill.Query
