import TemplateFill.Text.Digit

/-!
# Characters of markup

A document holds every character but most controls and two that are not characters. Names are
made of fewer. Some characters are written by a reference, because they would be taken for
markup or changed by reading.
-/

namespace TemplateFill.Xml

def isWritable (c : Char) : Bool :=
  let n := c.toNat
  n == 0x9 || n == 0xA || n == 0xD || (0x20 ≤ n && n != 0xFFFE && n != 0xFFFF)

def isWritableText (s : String) : Bool := s.toList.all isWritable

def isSpace (c : Char) : Bool := c = ' ' || c = '\t' || c = '\n' || c = '\r'

/-! ### Names -/

/-- First and last code points of the runs of characters that can begin a name. -/
def nameStartRuns : List (Nat × Nat) :=
  [(0x41, 0x5A), (0x5F, 0x5F), (0x61, 0x7A), (0xC0, 0xD6), (0xD8, 0xF6), (0xF8, 0x2FF),
   (0x370, 0x37D), (0x37F, 0x1FFF), (0x200C, 0x200D), (0x2070, 0x218F), (0x2C00, 0x2FEF),
   (0x3001, 0xD7FF), (0xF900, 0xFDCF), (0xFDF0, 0xFFFD), (0x10000, 0xEFFFF)]

/-- First and last code points of the further runs of characters that can be in a name. -/
def namePartRuns : List (Nat × Nat) :=
  [(0x2D, 0x2E), (0x30, 0x39), (0xB7, 0xB7), (0x300, 0x36F), (0x203F, 0x2040)]

/-- Whether a name without a colon can begin with this character. -/
def startsName (c : Char) : Bool := Text.isAmong nameStartRuns c

/-- Whether a name without a colon can go on with this character. -/
def continuesName (c : Char) : Bool := startsName c || Text.isAmong namePartRuns c

/-- Whether a text is a name without a colon. -/
def isBaseName : List Char → Bool
  | [] => false
  | c :: rest => startsName c && rest.all continuesName

/-- A name, in which colons may stand anywhere, and what follows it. -/
def takeName? : List Char → Option (String × List Char)
  | [] => none
  | c :: rest =>
    let goesOn (c : Char) : Bool := continuesName c || c = ':'
    if startsName c || c = ':' then
      some (String.ofList (c :: rest.takeWhile goesOn), rest.dropWhile goesOn)
    else none

/-! ### Cutting -/

/-- Split a text at the first occurrence of a mark, which belongs to neither part. -/
def splitAtMark? (mark : List Char) : List Char → Option (List Char × List Char)
  | [] => none
  | c :: rest =>
    if mark.isPrefixOf (c :: rest) then some ([], (c :: rest).drop mark.length)
    else (splitAtMark? mark rest).map fun (before, after) => (c :: before, after)

def afterWord? (word : String) (s : List Char) : Option (List Char) :=
  if word.toList.isPrefixOf s then some (s.drop word.length) else none

def skipSpace (s : List Char) : List Char := s.dropWhile isSpace

/-- Pass over blanks, of which there has to be at least one. -/
def afterSpace? : List Char → Option (List Char)
  | [] => none
  | c :: rest => if isSpace c then some (skipSpace rest) else none

/-- A text in quotes of either kind, and what follows it. -/
def takeQuoted? : List Char → Option (List Char × List Char)
  | [] => none
  | quote :: rest =>
    if quote = '"' || quote = '\'' then splitAtMark? [quote] rest else none

/-! ### Writing -/

def escapeInText (c : Char) : List Char :=
  match c with
  | '&' => "&amp;".toList
  | '<' => "&lt;".toList
  | '>' => "&gt;".toList
  | '\r' => "&#13;".toList
  | c => [c]

def escapeInValue (c : Char) : List Char :=
  match c with
  | '"' => "&quot;".toList
  | '\t' => "&#9;".toList
  | '\n' => "&#10;".toList
  | c => escapeInText c

/-- The character that a name between an ampersand and a semicolon stands for. -/
def namedCharacter? (name : String) : Option Char :=
  match name with
  | "amp" => some '&'
  | "lt" => some '<'
  | "gt" => some '>'
  | "quot" => some '"'
  | "apos" => some '\''
  | _ => none

end TemplateFill.Xml
