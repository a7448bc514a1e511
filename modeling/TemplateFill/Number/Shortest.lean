import TemplateFill.Number.Binary

/-!
# Shortest decimal text of a double

A double is written with the fewest significant digits that read back as the same
double; of two such numbers the nearer one is taken. The reals that read back as a
double form an interval around it, whose ends belong to it exactly when the mantissa is
even. For each number of digits only the two neighbours of the value on that decimal
grid need to be tried: if any point of the grid lies in the interval, one of them does.
-/

namespace TemplateFill.Number

/-- The number `digits * 10 ^ exponent`. -/
structure Decimal where
  digits : Nat
  exponent : Int
  deriving Repr, DecidableEq

/-- The interval of reals that round to a double, in quarters of its unit in the last
place. -/
structure RoundingInterval where
  low : Nat
  value : Nat
  high : Nat
  closed : Bool
  /-- The power of two that a quarter unit stands for. -/
  unit : Int
  deriving Repr

/-- Below a power of two the doubles lie twice as close. -/
def Dyadic.interval (x : Dyadic) : RoundingInterval where
  low := 4 * x.mantissa - (if x.mantissa = twoTo 52 && -1074 < x.exponent then 1 else 2)
  value := 4 * x.mantissa
  high := 4 * x.mantissa + 2
  closed := x.mantissa % 2 = 0
  unit := x.exponent - 2

/-- The three points of the interval as numerators over one denominator, measured in
units of `10 ^ exponent`. -/
def RoundingInterval.over (i : RoundingInterval) (exponent : Int) : Nat × Nat × Nat × Nat :=
  let (two, den) := scaleRatio 1 1 i.unit
  let (num, den) :=
    if 0 ≤ exponent then (two, den * tenTo exponent.toNat)
    else (two * tenTo (-exponent).toNat, den)
  (i.low * num, i.value * num, i.high * num, den)

/-- The number of digits before the point of a value of at least one; for smaller ones,
minus the number of zeros that follow the point. -/
def RoundingInterval.point (i : RoundingInterval) : Int :=
  let (_, value, _, den) := i.over 0
  if den ≤ value then (Nat.toDigits 10 (value / den)).length
  else
    let zeros := (List.range 400).find? fun zeros => den ≤ value * tenTo (zeros + 1)
    Int.negOfNat (zeros.getD 0)

/-- The point of the grid `10 ^ exponent` that lies in the interval, nearest to the
value; of two equally near ones the even one. -/
def RoundingInterval.gridPoint? (i : RoundingInterval) (exponent : Int) : Option Nat :=
  let (low, value, high, den) := i.over exponent
  let inside (c : Nat) : Bool :=
    if i.closed then low ≤ c * den && c * den ≤ high else low < c * den && c * den < high
  let below := value / den
  let above := below + 1
  match inside below, inside above with
  | true, true =>
    let down := value - below * den
    let up := above * den - value
    some (if down < up || (down = up && below % 2 = 0) then below else above)
  | true, false => some below
  | false, true => some above
  | false, false => none

/-- The shortest decimal that reads back as a positive double. Seventeen digits always
do. -/
def Dyadic.shortest (x : Dyadic) : Decimal :=
  let i := x.interval
  let point := i.point
  let found := (List.range 17).findSome? fun (fewer : Nat) =>
    let exponent := point - (fewer + 1 : Nat)
    (i.gridPoint? exponent).map fun digits => Decimal.mk digits exponent
  found.getD ⟨0, 0⟩

end TemplateFill.Number
