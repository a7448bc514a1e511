import TemplateFill.Text.Printable

/-!
# Quoted texts

How a text is shown inside a message so that its ends and its invisible characters
can be seen: in single quotes, or in double quotes when it holds a single quote and
no double one. The quote in use and the backslash are escaped, the common controls
have their letters, and every other character that is not printable is written by
its code point with two, four or eight hexadecimal digits.
-/

namespace TemplateFill.Text

/-- The lower-case hexadecimal digits of `n`, padded with zeros to `width`. -/
def hexDigits (width n : Nat) : List Char :=
  let digits := Nat.toDigits 16 n
  List.replicate (width - digits.length) '0' ++ digits

def quoteChar (quote c : Char) : List Char :=
  if c = quote || c = '\\' then ['\\', c]
  else if c = '\n' then ['\\', 'n']
  else if c = '\r' then ['\\', 'r']
  else if c = '\t' then ['\\', 't']
  else if isPrintable c then [c]
  else if c.toNat < 0x100 then ['\\', 'x'] ++ hexDigits 2 c.toNat
  else if c.toNat < 0x10000 then ['\\', 'u'] ++ hexDigits 4 c.toNat
  else ['\\', 'U'] ++ hexDigits 8 c.toNat

def quoted (s : String) : String :=
  let quote := if s.toList.contains '\'' && !s.toList.contains '"' then '"' else '\''
  String.ofList ([quote] ++ s.toList.flatMap (quoteChar quote) ++ [quote])

end TemplateFill.Text
