/-!
# Percent encoding

A text in a place that takes ASCII alone is written as its UTF-8 octets. The octets of
letters, digits, slashes and the four marks `_`, `.`, `-` and `~` stand as they are, every
other one is written as a percent sign and two hexadecimal digits.
-/

namespace TemplateFill.Text

def isUnreserved (c : Char) : Bool :=
  c.isAlphanum || c = '_' || c = '.' || c = '-' || c = '~' || c = '/'

/-- The capital hexadecimal digit of a number below sixteen. -/
def hexCapital (n : Nat) : Char := Char.ofNat (if n < 10 then 0x30 + n else 0x37 + n)

def percentOctet (octet : UInt8) : List Char :=
  ['%', hexCapital (octet.toNat / 16), hexCapital (octet.toNat % 16)]

def percentChar (c : Char) : List Char :=
  if isUnreserved c then [c] else (String.utf8EncodeChar c).flatMap percentOctet

def percentEncode (s : String) : String := String.ofList (s.toList.flatMap percentChar)

end TemplateFill.Text
