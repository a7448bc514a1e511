import TemplateFill.Text.Blank
import TemplateFill.Text.Digit
import TemplateFill.Text.Quoted
import TemplateFill.Number.Binary

/-!
# Numerals

Whole numbers in positional notation. A numeral may stand between blanks, may carry
a sign, takes the decimal digits of every script, and may group its digits with
single underscores; in base sixteen it may begin with `0x`.

Base ten has a limit: neither reading nor writing handles more than `digitLimit`
digits, because the conversion takes quadratic time.
-/

namespace TemplateFill.Number

/-- The longest decimal numeral that is read or written. -/
def digitLimit : Nat := 4300

/-- Why a numeral is not read, or a number not written. -/
inductive NumeralFault where
  /-- The text is not a numeral in this base. -/
  | malformed (base : Nat) (text : String)
  /-- The numeral has this many digits, which is over the limit. -/
  | tooLong (digits : Nat)
  /-- The number needs more digits than the limit. -/
  | tooLarge
  deriving Repr, DecidableEq

/-- The wording of a fault. A long malformed text is cut after two hundred characters. -/
def NumeralFault.message : NumeralFault → String
  | .malformed base text =>
    s!"invalid literal for int() with base {base}: " ++
      String.ofList ((Text.quoted text).toList.take 200)
  | .tooLong digits =>
    s!"Exceeds the limit ({digitLimit} digits) for integer string conversion: " ++
      s!"value has {digits} digits; use sys.set_int_max_str_digits() to increase the limit"
  | .tooLarge =>
    s!"Exceeds the limit ({digitLimit} digits) for integer string conversion; " ++
      "use sys.set_int_max_str_digits() to increase the limit"

/-- The value of a digit below `base`; the letters stand for ten and more. -/
def digitIn? (base : Nat) (c : Char) : Option Nat :=
  let value? :=
    match Text.digitValue? c with
    | some value => some value
    | none =>
      if 'a' ≤ c && c ≤ 'z' then some (c.toNat - 'a'.toNat + 10)
      else if 'A' ≤ c && c ≤ 'Z' then some (c.toNat - 'A'.toNat + 10)
      else none
  value?.filter (· < base)

/-- The blanks allowed around a numeral: all but the information separators. -/
def isPadding (c : Char) : Bool := Text.isBlank c && !(0x1C ≤ c.toNat && c.toNat ≤ 0x1F)

/-- Split off a sign; the flag says that it was a minus. -/
def splitSign : List Char → Bool × List Char
  | '-' :: rest => (true, rest)
  | '+' :: rest => (false, rest)
  | rest => (false, rest)

/-- Skip the mark of base sixteen, and one underscore after it. -/
def skipBaseMark (base : Nat) : List Char → List Char
  | zero :: x :: rest =>
    if base = 16 && Text.digitValue? zero == some 0 && (x = 'x' || x = 'X') then
      match rest with
      | '_' :: after => after
      | _ => rest
    else zero :: x :: rest
  | rest => rest

/-- The digits at the front with their grouping removed, and what follows them.
`none` if an underscore does not stand between two digits. -/
def takeDigits? (base : Nat) (s : List Char) : Option (List Nat × List Char) :=
  let run := s.takeWhile fun c => (digitIn? base c).isSome || c = '_'
  let rest := s.drop run.length
  let wellGrouped := run.head? != some '_' && run.getLast? != some '_' &&
    !(run.zip (run.drop 1)).contains ('_', '_')
  if run.isEmpty || !wellGrouped then none else some (run.filterMap (digitIn? base), rest)

/-- The number that a list of digits denotes, the first one weighing most. -/
def ofDigits (base : Nat) (digits : List Nat) : Nat :=
  digits.foldl (fun total digit => total * base + digit) 0

def readNumeral (base : Nat) (text : String) : Except NumeralFault Int :=
  let s := text.toList
  let (negative, body) := splitSign (s.dropWhile isPadding)
  match takeDigits? base (skipBaseMark base body) with
  | none => .error (.malformed base text)
  | some (digits, rest) =>
    if base = 10 && digitLimit < digits.length then .error (.tooLong digits.length)
    else if rest.all isPadding then
      let value : Int := ofDigits base digits
      .ok (if negative then -value else value)
    else .error (.malformed base text)

/-- Whether a number has more decimal digits than the limit. -/
def isOverLimit (n : Int) : Bool := tenTo digitLimit ≤ n.natAbs

/-- The decimal numeral of a number: no grouping, no padding, a minus if negative. -/
def writeNumeral (n : Int) : Except NumeralFault String :=
  if isOverLimit n then .error .tooLarge else .ok (toString n)

end TemplateFill.Number
