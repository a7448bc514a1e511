import TemplateFill.Xml.Character

/-!
# Rules for attributes

The type of a document has rules for the attributes of its elements: what kind of value an
attribute has, and which value by default. A value that is no text at all is made of words, whose
number of blanks does not count.
-/

namespace TemplateFill.Xml

inductive ValueKind where
  | text
  /-- A name that tells the element from all others of the document. -/
  | id
  | name
  | names
  | word
  | words
  deriving Repr, DecidableEq

/-- What is declared about an attribute of an element, both named as written. -/
structure AttributeRule where
  element : String
  name : String
  kind : ValueKind
  /-- The value by default. -/
  value? : Option String
  deriving Repr, DecidableEq

def wordsOf (value : String) : List String := (value.splitOn " ").filter (!·.isEmpty)

/-- Whether a text is a name, in which colons may stand. -/
def isName (s : String) : Bool := (takeName? s.toList).any (·.2.isEmpty)

/-- Whether a text is a word: it has at least one character, all of which can be in names. -/
def isWord (s : String) : Bool := !s.isEmpty && s.toList.all fun c => continuesName c || c = ':'

namespace ValueKind

/-- A value as the kind has it: words have a single space between them. -/
def tidy (kind : ValueKind) (value : String) : String :=
  if kind = .text then value else " ".intercalate (wordsOf value)

def admits (kind : ValueKind) (value : String) : Bool :=
  let parts := wordsOf value
  match kind with
  | .text => true
  | .id | .name => parts.length == 1 && parts.all isName
  | .names => !parts.isEmpty && parts.all isName
  | .word => parts.length == 1 && parts.all isWord
  | .words => !parts.isEmpty && parts.all isWord

end ValueKind

end TemplateFill.Xml
