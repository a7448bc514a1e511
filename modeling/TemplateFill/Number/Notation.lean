import TemplateFill.Number.Shortest

/-!
# Text of a double

The shortest digits of a double are laid out by position while the decimal exponent is
at least -4 and below 16, with at least one digit after the point; outside that range
they are laid out with one digit before the point and an exponent of at least two
digits that always carries its sign.
-/

namespace TemplateFill.Number

/-- The spellings of the values that have no digits. -/
structure SpecialNames where
  infinity : String
  notANumber : String

/-- How a value is shown on its own. -/
def plainNames : SpecialNames := ⟨"inf", "nan"⟩

/-- How a value is written in a data text. -/
def dataNames : SpecialNames := ⟨"Infinity", "NaN"⟩

/-- An exponent with its sign and at least two digits. -/
def exponentText (e : Int) : String :=
  let digits := toString e.natAbs
  (if e < 0 then "-" else "+") ++ (if digits.length < 2 then "0" ++ digits else digits)

def Decimal.text (d : Decimal) : String :=
  let all := Nat.toDigits 10 d.digits
  let exponent := d.exponent + all.length - 1
  let digits := (all.reverse.dropWhile (· = '0')).reverse
  let write := String.ofList
  if -4 ≤ exponent && exponent < 16 then
    if exponent < 0 then
      "0." ++ write (List.replicate (-exponent - 1).toNat '0') ++ write digits
    else
      let whole := (exponent + 1).toNat
      let front := digits.take whole
      let back := digits.drop whole
      write front ++ write (List.replicate (whole - front.length) '0') ++ "." ++
        (if back.isEmpty then "0" else write back)
  else
    let back := digits.drop 1
    write (digits.take 1) ++ (if back.isEmpty then "" else "." ++ write back) ++ "e" ++
      exponentText exponent

def floatText (names : SpecialNames) (x : Float) : String :=
  match viewFloat x with
  | .notANumber => names.notANumber
  | .infinite negative => (if negative then "-" else "") ++ names.infinity
  | .finite negative size =>
    (if negative then "-" else "") ++
      (if size.mantissa = 0 then "0.0" else size.shortest.text)

end TemplateFill.Number
