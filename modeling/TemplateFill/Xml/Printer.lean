import TemplateFill.Xml.Character
import TemplateFill.Xml.Node

/-!
# Printing nodes

The printed form of a node is one of many ways to write it: the attributes that are stated are
sorted by their printed names, an element without content is closed at once, and the tags of name
spaces are taken as given, without declaring them.

A node is printed to be shown or to be read again. What is shown has no entities: values have
their texts, and every aside is a comment.
-/

namespace TemplateFill.Xml

inductive Purpose where
  | display
  | storage
  deriving Repr, DecidableEq

/-- An attribute after a blank, given what stands between its quotes. -/
def printAttribute (name : String) (content : List Char) : List Char :=
  [' '] ++ name.toList ++ ['=', '"'] ++ content ++ ['"']

/-- The attributes of an element, sorted by their printed names. -/
def printAttributes (purpose : Purpose) (bindings : Bindings) (attributes : Attributes) :
    List Char :=
  let printed := attributes.stated.map fun (name, value) =>
    let content :=
      match purpose, attributes.sources.lookup name with
      | .storage, some source => source.toList
      | _, _ => value.toList.flatMap escapeInValue
    (name.tagged bindings, content)
  (printed.mergeSort fun a b => a.1 ≤ b.1).flatMap fun (name, content) =>
    printAttribute name content

def printText (content : String) : List Char := content.toList.flatMap escapeInText

def printAside (purpose : Purpose) (aside : Aside) : List Char :=
  match purpose with
  | .display => aside.shown.toList
  | .storage => aside.written.toList

namespace Node

mutual

/-- The printed form of a node, without the text behind it. -/
def print (purpose : Purpose) (bindings : Bindings) : Node → List Char
  | .element name _ traits children =>
    let head := name.tagged bindings
    let start := ['<'] ++ head.toList ++ printAttributes purpose bindings traits.attributes
    match printText traits.text ++ printAll purpose bindings children with
    | [] => start ++ ['/', '>']
    | content => start ++ ['>'] ++ content ++ ['<', '/'] ++ head.toList ++ ['>']
  | .aside content _ => printAside purpose content

/-- The printed forms of some nodes, each with the text behind it. -/
def printAll (purpose : Purpose) (bindings : Bindings) : List Node → List Char
  | [] => []
  | node :: rest =>
    print purpose bindings node ++ printText node.tail ++ printAll purpose bindings rest

end

end Node

end TemplateFill.Xml
