/-!
# Blank characters

The blank characters are those with the Unicode property White_Space together
with the four information separators U+001C to U+001F. Trimming removes them at
both ends of a text and nowhere else.
-/

namespace TemplateFill.Text

/-- White space in the wide sense: every Unicode space, line and paragraph
separator, the ASCII controls that move the carriage, and U+001C to U+001F. -/
def isBlank (c : Char) : Bool :=
  let n := c.toNat
  (0x9 ≤ n && n ≤ 0xD) || (0x1C ≤ n && n ≤ 0x20) || n == 0x85 || n == 0xA0 || n == 0x1680 ||
    (0x2000 ≤ n && n ≤ 0x200A) || n == 0x2028 || n == 0x2029 || n == 0x202F || n == 0x205F ||
    n == 0x3000

/-- Drop the blanks before the first character that is not one. -/
def trimStart (s : List Char) : List Char := s.dropWhile isBlank

/-- Drop the blanks after the last character that is not one. -/
def trimEnd (s : List Char) : List Char := (s.reverse.dropWhile isBlank).reverse

def trim (s : List Char) : List Char := trimEnd (trimStart s)

def trimmed (s : String) : String := String.ofList (trim s.toList)

/-- A text made of blanks alone; the empty text is one. -/
def isAllBlank (s : String) : Bool := s.toList.all isBlank

end TemplateFill.Text
