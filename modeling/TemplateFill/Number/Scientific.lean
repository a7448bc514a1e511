import TemplateFill.Number.Binary
import TemplateFill.Number.Numeral
import TemplateFill.Text.Case

/-!
# Reading decimal fractions

A decimal fraction has digits with at most one point among them and may end in an
exponent. The digits of every script count, may be grouped by single underscores, and
blanks may surround the whole; infinity and the value that is no number have names.
-/

namespace TemplateFill.Number

structure Fraction where
  whole : List Nat
  part : List Nat
  exponent : Int

def Fraction.toFloat (negative : Bool) (f : Fraction) : Float :=
  floatOfDecimal negative (ofDigits 10 (f.whole ++ f.part)) (f.exponent - f.part.length)

def takeOptionalDigits (s : List Char) : Option (List Nat × List Char) :=
  match s with
  | [] => some ([], [])
  | c :: _ => if (digitIn? 10 c).isSome || c = '_' then takeDigits? 10 s else some ([], s)

def readExponent? : List Char → Option Int
  | [] => some 0
  | e :: rest =>
    if e = 'e' || e = 'E' then
      let (negative, body) := splitSign rest
      match takeDigits? 10 body with
      | some (digits, []) =>
        let value : Int := ofDigits 10 digits
        some (if negative then -value else value)
      | _ => none
    else none

/-- An unsigned fraction. At least one digit must stand before or after the point. -/
def readFraction? (s : List Char) : Option Fraction := do
  let (whole, rest) ← takeOptionalDigits s
  let (part, rest) ←
    match rest with
    | '.' :: after => takeOptionalDigits after
    | _ => some ([], rest)
  if whole.isEmpty && part.isEmpty then none
  let exponent ← readExponent? rest
  return ⟨whole, part, exponent⟩

def readFloat? (text : String) : Option Float :=
  let s := text.toList
  let padding := isPadding
  let inner := ((s.dropWhile padding).reverse.dropWhile padding).reverse
  let (negative, body) := splitSign inner
  let name := String.ofList body
  if Text.isWord "inf" name || Text.isWord "infinity" name then some (infinity negative)
  else if Text.isWord "nan" name then some notANumber
  else (readFraction? body).map (·.toFloat negative)

end TemplateFill.Number
