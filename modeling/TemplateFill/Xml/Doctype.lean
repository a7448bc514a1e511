import TemplateFill.Text.Line
import TemplateFill.Xml.Aside
import TemplateFill.Xml.AttributeRule
import TemplateFill.Xml.Reference
import TemplateFill.Xml.StartTag

/-!
# Document types

A document may declare its type in front of the root. An entity is a name for a text, an
attribute has values of a kind and perhaps one by default, and an element may be declared to
contain elements only. Declarations that are kept elsewhere are not read; an entity without a
declaration is then let through, because it might be declared there.
-/

namespace TemplateFill.Xml

inductive EntityValue where
  | text (content : List Char)
  /-- Markup that is kept elsewhere. -/
  | outside
  /-- Something else than markup. -/
  | foreign
  deriving Repr, DecidableEq

/-- What a document declares. The first declaration of a name counts. -/
structure Doctype where
  /-- Whether declarations that are kept elsewhere do not matter. -/
  isStandalone : Bool
  /-- Whether some declarations are kept elsewhere. -/
  isOpen : Bool
  entities : List (String × EntityValue)
  /-- The entities that stand for declarations. -/
  parameters : List (String × EntityValue)
  /-- The entities whose text cannot be the content of an element. -/
  broken : List String
  rules : List AttributeRule
  elements : List (String × ContentModel)
  notations : List String
  deriving Repr, DecidableEq

/-- The name of the attribute whose value is always an id. -/
def idAttribute : String := "xml:id"

namespace Doctype

def empty (isStandalone : Bool) : Doctype := ⟨isStandalone, false, [], [], [], [], [], []⟩

/-- Whether every entity has to be declared. -/
def isStrict (doctype : Doctype) : Bool := doctype.isStandalone || !doctype.isOpen

/-- Whether an entity may stand in the content of an element. -/
def allows (doctype : Doctype) (name : String) : Bool :=
  match doctype.entities.lookup name with
  | some .foreign => false
  | some .outside => true
  | some (.text _) => !doctype.broken.contains name
  | none => !doctype.isStrict

/-! ### Values of attributes -/

/-- The longest value that the entities in it may make. -/
def expansionLimit : Nat := 1000000

/-- The text of some pieces in the value of an attribute, with the entities in it resolved, at
most so many inside each other. -/
def expand? (doctype : Doctype) : Nat → List Piece → Option (List Char)
  | 0, _ => none
  | depth + 1, pieces => do
    let parts ← pieces.mapM fun piece =>
      match piece with
      | .char c => some [c]
      | .entity name =>
        match doctype.entities.lookup name with
        | some (.text content) => do
          if content.contains '<' then none
          doctype.expand? depth (← pieces? content)
        | some _ => none
        | none => if doctype.isStrict then none else some []
    let text := parts.flatten
    if expansionLimit < text.length then none else some text

/-- The pieces of a value between quotes, and the text that they stand for. Its blanks are
spaces, but a reference to a blank is not. -/
def readPieces? (doctype : Doctype) (raw : List Char) : Option (List Piece × String) := do
  if raw.contains '<' then none
  let pieces ← pieces? ((Text.unifyBreaks raw).map fun c => if isSpace c then ' ' else c)
  return (pieces, String.ofList (← doctype.expand? (doctype.entities.length + 1) pieces))

/-- The source of pieces, in which each character is written in a way of its own. -/
def sourceOf (write : Char → List Char) (pieces : List Piece) : String :=
  String.ofList <| pieces.flatMap fun piece =>
    match piece with
    | .char c => write c
    | .entity name => (Aside.referenceText name).toList

/-- An attribute, given its value between quotes. -/
def readAttribute? (doctype : Doctype) (name : String) (raw : List Char) :
    Option WrittenAttribute := do
  let (pieces, value) ← doctype.readPieces? raw
  let isReference (piece : Piece) : Bool :=
    match piece with
    | .char _ => false
    | .entity _ => true
  let source? := if pieces.any isReference then some (sourceOf escapeInValue pieces) else none
  return ⟨name, value, source?⟩

/-- A value by default, given between quotes. It is checked like any value, but what it refers to
is not looked up: entities stay, and an ampersand is written by its number. -/
def readDefault? (doctype : Doctype) (raw : List Char) : Option String := do
  let (pieces, _) ← doctype.readPieces? raw
  return sourceOf (fun c => if c = '&' then "&#38;".toList else [c]) pieces

def rule? (doctype : Doctype) (element name : String) : Option AttributeRule :=
  doctype.rules.find? fun rule => rule.element == element && rule.name == name

/-- The start of an element with these attributes. Their values are tidied as declared. What an
element may contain is declared for its base name. -/
def startTag (doctype : Doctype) (element : String) (attributes : List WrittenAttribute) :
    StartTag :=
  let kindOf (name : String) : ValueKind :=
    ((doctype.rule? element name).map (·.kind)).getD .text
  let isId (entry : WrittenAttribute) : Bool :=
    entry.source?.isNone &&
      (entry.name == idAttribute || kindOf entry.name = .id)
  let tidied := attributes.map fun entry =>
    { entry with value := (kindOf entry.name).tidy entry.value }
  let rules := doctype.rules.filter (·.element == element)
  let base := (element.splitOn ":").getLastD element
  ⟨element, tidied, rules.map fun rule => (rule.name, rule.value?), doctype.elements.lookup base,
    (tidied.filter isId).map (·.value)⟩

end Doctype

end TemplateFill.Xml
