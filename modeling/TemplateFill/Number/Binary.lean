/-!
# Binary floating point

A double is taken apart into sign, mantissa and a power of two, and put together
again from any ratio of natural numbers by rounding to the nearest double, ties going
to the even mantissa. Everything in between is exact arithmetic on natural numbers.
-/

namespace TemplateFill.Number

def twoTo (n : Nat) : Nat := Nat.pow 2 n

def tenTo (n : Nat) : Nat := Nat.pow 10 n

/-- The exact value `mantissa * 2 ^ exponent`. -/
structure Dyadic where
  mantissa : Nat
  exponent : Int
  deriving Repr, DecidableEq

inductive FloatView where
  | finite (negative : Bool) (size : Dyadic)
  | infinite (negative : Bool)
  | notANumber
  deriving Repr, DecidableEq

/-- Read the three fields of a double. -/
def viewFloat (x : Float) : FloatView :=
  let bits := x.toBits.toNat
  let negative := bits / twoTo 63 == 1
  let exponent : Nat := bits / twoTo 52 % twoTo 11
  let fraction : Nat := bits % twoTo 52
  if exponent = 0x7FF then
    if fraction = 0 then .infinite negative else .notANumber
  else if exponent = 0 then .finite negative ⟨fraction, -1074⟩
  else .finite negative ⟨twoTo 52 + fraction, (exponent : Int) - 1075⟩

/-- The quotient rounded to the nearest natural number, a half going to the even one. -/
def roundHalfEven (num den : Nat) : Nat :=
  let quotient := num / den
  let twice := 2 * (num % den)
  if den < twice || (twice = den && quotient % 2 = 1) then quotient + 1 else quotient

/-- Scale a ratio by a power of two, keeping both sides natural. -/
def scaleRatio (num den : Nat) (power : Int) : Nat × Nat :=
  if 0 ≤ power then (num * twoTo power.toNat, den) else (num, den * twoTo (-power).toNat)

def infinity (negative : Bool) : Float :=
  Float.ofBits (if negative then 0xFFF0000000000000 else 0x7FF0000000000000)

def notANumber : Float := Float.ofBits 0x7FF8000000000000

/-- The double nearest to `num / den`, which is infinite from the end of the range on. -/
def nearestFloat (num den : Nat) : Float :=
  if num = 0 || den = 0 then 0
  else
    let guess : Int := (num.log2 : Int) - den.log2
    let (n, d) := scaleRatio num den (-guess)
    let leading := if d ≤ n then guess else guess - 1
    let exponent := max (leading - 52) (-1074)
    let (n, d) := scaleRatio num den (-exponent)
    let mantissa := roundHalfEven n d
    let bits :=
      if mantissa < twoTo 52 then mantissa
      else (exponent + 1075).toNat * twoTo 52 + (mantissa - twoTo 52)
    if 0x7FF * twoTo 52 ≤ bits then infinity false else Float.ofBits bits.toUInt64

/-- The double nearest to `digits * 10 ^ exponent`. Far outside the range of doubles the
answer is known without the power. -/
def floatOfDecimal (negative : Bool) (digits : Nat) (exponent : Int) : Float :=
  let length : Int := (Nat.toDigits 10 digits).length
  let size :=
    if digits = 0 || length + exponent < -330 then 0
    else if 330 < length + exponent then infinity false
    else if 0 ≤ exponent then nearestFloat (digits * tenTo exponent.toNat) 1
    else nearestFloat digits (tenTo (-exponent).toNat)
  if negative then -size else size

/-- The nearest double to a whole number, or `none` if that is out of range. -/
def floatOfInt? (n : Int) : Option Float :=
  let size := nearestFloat n.natAbs 1
  if size.isInf then none else some (if n < 0 then -size else size)

end TemplateFill.Number
