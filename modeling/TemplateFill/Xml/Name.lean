/-!
# Names

An element or attribute name is a base name in a name space. The spaces of word
processing documents are known by themselves, every other one by its identifier. In
written markup a space is named by a short tag, which a list of bindings assigns.
-/

namespace TemplateFill.Xml

inductive Space where
  /-- Outside every name space. -/
  | absent
  /-- Word processing. -/
  | word
  /-- The additions of 2010. -/
  | word2010
  /-- The additions of 2012. -/
  | word2012
  /-- The space of markup itself. -/
  | xml
  /-- Any other space. -/
  | other (identifier : String)
  deriving Repr, DecidableEq

namespace Space

def identifier : Space → String
  | .absent => ""
  | .word => "http://schemas.openxmlformats.org/wordprocessingml/2006/main"
  | .word2010 => "http://schemas.microsoft.com/office/word/2010/wordml"
  | .word2012 => "http://schemas.microsoft.com/office/word/2012/wordml"
  | .xml => "http://www.w3.org/XML/1998/namespace"
  | .other identifier => identifier

def ofIdentifier (identifier : String) : Space :=
  match [absent, word, word2010, word2012, xml].find? (·.identifier == identifier) with
  | some space => space
  | none => .other identifier

end Space

/-- A name: what it is called and in which space. -/
structure Name where
  space : Space
  base : String
  deriving Repr, DecidableEq

abbrev Name.word (base : String) : Name := ⟨.word, base⟩

/-- Short tags and the spaces they stand for. -/
abbrev Bindings := List (String × Space)

/-- The tag of the space of markup needs no declaration. -/
def builtinBindings : Bindings := [("xml", .xml)]

def knownBindings : Bindings :=
  [("w", .word), ("w14", .word2010), ("w15", .word2012)] ++ builtinBindings

/-- A name with the tag of its space in front, or bare if its space has none. -/
def Name.tagged (bindings : Bindings) (name : Name) : String :=
  match bindings.find? (·.2 == name.space) with
  | some (tag, _) => tag ++ ":" ++ name.base
  | none => name.base

end TemplateFill.Xml
