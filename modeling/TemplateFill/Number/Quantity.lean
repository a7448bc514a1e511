import TemplateFill.Number.Binary

/-!
# Quantities

A quantity is a whole number of any size or a double. Comparison between the two kinds
is exact: no whole number is rounded for it. Arithmetic stays among whole numbers while
it can and turns to doubles as soon as one takes part.
-/

namespace TemplateFill.Number

inductive Quantity where
  | whole (n : Int)
  | real (x : Float)

/-- Why an operation on quantities has no result. -/
inductive QuantityFault where
  /-- A whole number is beyond the range of doubles. -/
  | outOfRange
  /-- A quotient of whole numbers is beyond the range of doubles. -/
  | quotientOutOfRange
  /-- Infinity has no whole neighbour. -/
  | infinite
  /-- Neither has the value that is no number. -/
  | notANumber
  deriving Repr, DecidableEq

def QuantityFault.message : QuantityFault → String
  | .outOfRange => "int too large to convert to float"
  | .quotientOutOfRange => "integer division result too large for a float"
  | .infinite => "cannot convert float infinity to integer"
  | .notANumber => "cannot convert float NaN to integer"

/-- The exact order of a whole number and a double; `none` if the latter is no number. -/
def compareWithFloat (n : Int) (x : Float) : Option Ordering :=
  match viewFloat x with
  | .notANumber => none
  | .infinite negative => some (if negative then .gt else .lt)
  | .finite negative size =>
    let (num, den) := scaleRatio size.mantissa 1 size.exponent
    let value : Int := if negative then -num else num
    some (compare (n * den) value)

namespace Quantity

/-- The order of two quantities; `none` if one is no number. -/
def order? : Quantity → Quantity → Option Ordering
  | .whole a, .whole b => some (compare a b)
  | .whole a, .real y => compareWithFloat a y
  | .real x, .whole b => (compareWithFloat b x).map Ordering.swap
  | .real x, .real y => if x < y then some .lt else if x == y then some .eq
    else if y < x then some .gt else none

/-- Numerical equality across both kinds. -/
def equal (a b : Quantity) : Bool := order? a b == some .eq

/-- Strict order across both kinds. -/
def less (a b : Quantity) : Bool := order? a b == some .lt

/-- The double that stands for a quantity in mixed arithmetic. -/
def toFloat : Quantity → Except QuantityFault Float
  | .whole n => match floatOfInt? n with
    | some x => .ok x
    | none => .error .outOfRange
  | .real x => .ok x

def add : Quantity → Quantity → Except QuantityFault Quantity
  | .whole a, .whole b => .ok (.whole (a + b))
  | a, b => do return .real ((← a.toFloat) + (← b.toFloat))

/-- The sum of a list, taken from the left and starting at the whole number zero. -/
def sum (items : List Quantity) : Except QuantityFault Quantity :=
  items.foldlM add (.whole 0)

/-- Division by a positive count, always a double. The quotient of whole numbers is rounded
once. -/
def divideBy (count : Nat) : Quantity → Except QuantityFault Quantity
  | .whole n =>
    let size := nearestFloat n.natAbs count
    if size.isInf then .error .quotientOutOfRange
    else .ok (.real (if n < 0 then -size else size))
  | .real x => .ok (.real (x / nearestFloat count 1))

def magnitude : Quantity → Quantity
  | .whole n => .whole n.natAbs
  | .real x => .real x.abs

/-- Round a quantity to a whole number by the given rule for `num / den`. -/
def roundWith (rule : Int → Int → Int) : Quantity → Except QuantityFault Quantity
  | .whole n => .ok (.whole n)
  | .real x =>
    match viewFloat x with
    | .notANumber => .error .notANumber
    | .infinite _ => .error .infinite
    | .finite negative size =>
      let (num, den) := scaleRatio size.mantissa 1 size.exponent
      .ok (.whole (rule (if negative then -num else num) den))

def floor : Quantity → Except QuantityFault Quantity := roundWith Int.fdiv

def ceil : Quantity → Except QuantityFault Quantity :=
  roundWith fun num den => -Int.fdiv (-num) den

end Quantity

end TemplateFill.Number
