import TemplateFill.Word.Vocabulary
import TemplateFill.Text.Blank
import TemplateFill.Text.Case

/-!
# Content controls

A content control is an element with properties and a content area. The properties hold its
tag, which says what data it takes, and decide its kind. A control whose tag begins with
`visible:` is conditional, and the rest of its tag is the condition.
-/

namespace TemplateFill

open Xml

namespace Control

/-- Why a control cannot take data. -/
inductive Obstacle where
  | untagged
  | emptyTag
  /-- The properties hold elements of other kinds of controls. -/
  | wrongType (tag : String) (types : List String)
  deriving Repr, DecidableEq

def Obstacle.message : Obstacle → String
  | .untagged => "Placeholder found without tag. Placeholders without tag are not supported"
  | .emptyTag => "Placeholder found with an empty tag. Placeholders without tag are not supported"
  | .wrongType tag types =>
    let listed := ", ".intercalate types
    s!"Placeholder '{tag}' has incorrect type '{listed}'. " ++
      "Only plain text, rich text and repeating section are supported"

inductive Kind where
  | plainText
  | richText
  | repeatingSection
  | unsupported (obstacle : Obstacle)
  deriving Repr, DecidableEq

def foreignMarks : List Name :=
  [.word "dataBinding", ⟨.word2012, "dataBinding"⟩, .word "equation", .word "picture",
    .word "citation", .word "group", .word "bibliography", ⟨.word2010, "entityPicker"⟩,
    ⟨.word2012, "repeatingSectionItem"⟩, ⟨.word2012, "webExtensionLinked"⟩,
    ⟨.word2012, "webExtensionCreated"⟩, .word "comboBox", .word "date", .word "docPartObj",
    .word "docPartList", .word "dropDownList", ⟨.word2010, "checkbox"⟩,
    ⟨.word2012, "appearance"⟩]

/-- The first words of the tag of a conditional control. -/
def conditionMark : String := "visible:"

def properties? (node : Node) : Option Node := node.child? Word.controlProperties

def content? (node : Node) : Option Node := node.child? Word.controlContent

def tagNode? (properties : Node) : Option Node :=
  (Node.elementsOf properties.children).find? (·.isNamed Word.controlTag)

/-- The names of the foreign marks in the properties, in document order. -/
def foreignTypes (properties : Node) : List String :=
  (properties.elements.filterMap Node.name?).filter (foreignMarks.contains ·) |>.map
    (·.tagged knownBindings)

/-- Whether an element of a name is below the properties. -/
def isMarked (mark : Name) (properties : Node) : Bool :=
  (Node.elementsOf properties.children).any (·.isNamed mark)

def kindOfTagged (tag : String) (properties : Node) : Kind :=
  match foreignTypes properties with
  | [] =>
    if isMarked Word.plainTextMark properties then .plainText
    else if isMarked Word.repeatingSectionMark properties then .repeatingSection
    else .richText
  | types => .unsupported (.wrongType tag types)

end Control

/-- What is known about a content control: its tag, if it has one, and its kind. -/
structure Control where
  tag : Option String
  kind : Control.Kind
  deriving Repr, DecidableEq

namespace Control

def read (node : Node) : Control :=
  match (properties? node).bind fun properties =>
      (tagNode? properties).map fun tagNode => (properties, tagNode) with
  | none => ⟨none, .unsupported .untagged⟩
  | some (properties, tagNode) =>
    match tagNode.attribute? Word.value with
    | none => ⟨none, .unsupported .emptyTag⟩
    | some tag =>
      if Text.isAllBlank tag then ⟨some tag, .unsupported .emptyTag⟩
      else ⟨some tag, kindOfTagged tag properties⟩

def label (control : Control) : String := control.tag.getD ""

def condition? (control : Control) : Option String :=
  match control.tag with
  | none => none
  | some tag =>
    if Text.startsWithWord conditionMark tag then
      some (String.ofList (Text.trim (tag.toList.drop conditionMark.length)))
    else none

def isControl (node : Node) : Bool := node.isNamed Word.control

mutual

def outermost : Node → List Node
  | .element name lineage traits children =>
    if name = Word.control then [.element name lineage traits children]
    else outermostOf children
  | _ => []

/-- The outermost controls of some trees, in document order. -/
def outermostOf : List Node → List Node
  | [] => []
  | node :: rest => outermost node ++ outermostOf rest

end

/-- The controls below a node that are not below another control. -/
def childControls (node : Node) : List Node := outermostOf node.children

def all (nodes : List Node) : List Node := (Node.elementsOf nodes).filter isControl

mutual

/-- Number the controls of a tree in document order, from `next` on. -/
def enroll (next : Nat) : Node → Node × Nat
  | .element name _ traits children =>
    if name = Word.control then
      let (children, after) := enrollAll (next + 1) children
      (.element name [next] traits children, after)
    else
      let (children, after) := enrollAll next children
      (.element name [] traits children, after)
  | node => (node, next)

def enrollAll (next : Nat) : List Node → List Node × Nat
  | [] => ([], next)
  | node :: rest =>
    let (node, after) := enroll next node
    let (rest, after) := enrollAll after rest
    (node :: rest, after)

end

/-- Trees whose controls have lineages of their own. -/
def enrolled (nodes : List Node) : List Node := (enrollAll 0 nodes).1

end Control

end TemplateFill
