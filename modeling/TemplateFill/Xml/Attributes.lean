import TemplateFill.Xml.Name

/-!
# Attributes

Attributes are stated where an element starts. The type of a document may give others a value by
default: these are presumed. A look-up finds them, but they are no part of the element, so they
are neither listed nor written.

A stated value may refer to entities. It keeps its source then, because that is what is written.
-/

namespace TemplateFill.Xml

structure Attributes where
  stated : List (Name × String)
  /-- The sources of the stated values that refer to entities. -/
  sources : List (Name × String)
  presumed : List (Name × String)
  deriving Repr, DecidableEq, Inhabited

namespace Attributes

/-- Attributes all of which are stated, without entities. -/
def ofList (stated : List (Name × String)) : Attributes := ⟨stated, [], []⟩

def lookup (name : Name) (attributes : Attributes) : Option String :=
  attributes.stated.lookup name <|> attributes.presumed.lookup name

def without (name : Name) (entries : List (Name × String)) : List (Name × String) :=
  entries.filter (·.1 != name)

/-- State the value of an attribute: an old one keeps its place, a new one goes to the end. -/
def set (name : Name) (value : String) (attributes : Attributes) : Attributes :=
  let stated := attributes.stated
  { attributes with
    stated :=
      if stated.any (·.1 == name) then
        stated.map fun entry => if entry.1 == name then (name, value) else entry
      else stated ++ [(name, value)]
    sources := without name attributes.sources }

def erase (name : Name) (attributes : Attributes) : Attributes :=
  { attributes with
    stated := without name attributes.stated
    sources := without name attributes.sources }

end Attributes

end TemplateFill.Xml
