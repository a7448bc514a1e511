/-!
# Room for nesting

What is nested is taken apart by calls inside each other, and their number is bounded. How many are
left depends on where an operation begins, so the room that it has is given from outside. What does
not fit into it fails.
-/

namespace TemplateFill

/-- How deeply something may be nested. -/
class Room where
  /-- Lists and objects inside each other in a data text that is read. -/
  reading : Nat
  /-- Lists and objects inside each other in a value that is written. -/
  writing : Nat
  /-- Lists and objects inside each other in values that are compared or shown. -/
  viewing : Nat
  /-- Readers inside each other when a query is read, beyond the four that are always left. -/
  parsing : Nat
  /-- Parts inside each other in a query that is evaluated, beyond the two that are always left. -/
  evaluating : Nat

/-- The room that is left by a bound of a thousand calls, some of which the surroundings take. -/
instance Room.usual : Room where
  reading := 985
  writing := 985
  viewing := 985
  parsing := 960
  evaluating := 480

end TemplateFill
