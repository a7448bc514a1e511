import TemplateFill.Xml.Printer

/-!
# Written documents

A document is written as one element that declares a tag for every name space in it. The
known spaces have tags of their own; the others are numbered in the order in which they are
met.
-/

namespace TemplateFill.Xml

namespace Node

/-- The names in a tree: of its elements and of their attributes. -/
def names (root : Node) : List Name :=
  root.elements.flatMap fun node => node.name?.toList ++ node.attributes.stated.map (·.1)

/-- The spaces in a tree that are not known by themselves. -/
def otherSpaces (root : Node) : List Space :=
  (root.names.map (·.space)).eraseDups.filter fun space =>
    match space with
    | .other _ => true
    | _ => false

/-- A tag for every space that needs one. -/
def bindings (root : Node) : Bindings :=
  knownBindings ++ root.otherSpaces.zipIdx.map fun (space, number) => (s!"ns{number}", space)

end Node

/-- The attributes that declare tags. The space of markup itself is never declared. -/
def declarations (bindings : Bindings) : List (Name × String) :=
  (bindings.filter (·.2 != .xml)).map fun (tag, space) =>
    (⟨.absent, "xmlns:" ++ tag⟩, space.identifier)

def writeDocument (root : Node) : String :=
  let bindings := root.bindings
  match root with
  | .element name lineage traits children =>
    let attributes := { traits.attributes with
      stated := declarations bindings ++ traits.attributes.stated }
    let declared := .element name lineage { traits with attributes := attributes } children
    String.ofList (Node.print .storage bindings declared)
  | node => String.ofList (node.print .storage bindings)

end TemplateFill.Xml
