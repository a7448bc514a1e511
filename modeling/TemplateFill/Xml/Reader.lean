import TemplateFill.Text.Line
import TemplateFill.Xml.Declaration
import TemplateFill.Xml.Event
import TemplateFill.Xml.Identifier
import TemplateFill.Xml.Node

/-!
# Reading nodes

Events are put together to nodes along a list of the elements that are still open, the
innermost first. Blanks between elements are layout and are dropped, unless the element
around them asks for its spaces to be kept or holds other text.
-/

namespace TemplateFill.Xml

/-! ### Names -/

/-- The tag and the base name of a written name. -/
def splitTag? (written : String) : Option (Option String × String) :=
  match Text.cutAt ':' written.toList with
  | [base] => if isBaseName base then some (none, String.ofList base) else none
  | [tag, base] =>
    if isBaseName tag && isBaseName base then
      some (some (String.ofList tag), String.ofList base)
    else none
  | _ => none

/-- The tag that declares others. It stands for no space that names can be in. -/
def declaringTag : String := "xmlns"

def declaringIdentifier : String := "http://www.w3.org/2000/xmlns/"

/-- The tag that an attribute declares, which is empty for the default space; `none` if it is no
declaration. -/
def declaredTag? (written : String) : Option String :=
  if written == declaringTag then some ""
  else
    match splitTag? written with
    | some (some tag, base) => if tag == declaringTag then some base else none
    | _ => none

/-- The binding that a declaration makes, if it is allowed and makes any. The space of markup
can only be declared under its own tag, and a tag cannot be taken back. -/
def binding? (tag identifier : String) : Option (Option (String × Space)) :=
  let space := Space.ofIdentifier identifier
  if tag == "xml" then if space = .xml then some none else none
  else if space = .xml || tag == declaringTag || identifier == declaringIdentifier then none
  else if identifier.isEmpty then if tag.isEmpty then some (some (tag, space)) else none
  else if Identifier.isValid identifier.toList then some (some (tag, space))
  else none

/-- The bindings after the declarations among the attributes of an element, whether they are
written or presumed. -/
def declare? (tag : StartTag) (bindings : Bindings) : Option Bindings := do
  let declared ← (tag.written ++ tag.presumed).mapM fun (written, value) =>
    match declaredTag? written with
    | some tag => binding? tag value
    | none => some none
  return declared.filterMap id ++ bindings

/-- The name of an element. Without a tag it is in the default space. -/
def elementName? (bindings : Bindings) (written : String) : Option Name := do
  match ← splitTag? written with
  | (some tag, base) => return ⟨← bindings.lookup tag, base⟩
  | (none, base) => return ⟨(bindings.lookup "").getD .absent, base⟩

/-- The name of an attribute. Without a tag it is in no space. -/
def attributeName? (bindings : Bindings) (written : String) : Option Name := do
  match ← splitTag? written with
  | (some tag, base) => return ⟨← bindings.lookup tag, base⟩
  | (none, base) => return ⟨.absent, base⟩

/-- The attributes among some that are no declarations, by their names. -/
def attributes? (bindings : Bindings) (written : List (String × String)) :
    Option (List (Name × String)) :=
  (written.filter (declaredTag? ·.1 |>.isNone)).mapM fun (name, value) => do
    return (← attributeName? bindings name, value)

/-- The values by default that a look-up finds. An attribute is looked for under every tag of its
space, the nearest first, and also without a tag if its space is the default one. -/
def presumedValues (bindings : Bindings) (declared : List (String × Option String)) :
    List (Name × String) :=
  let rules := declared.filterMap fun (written, value?) =>
    (splitTag? written).map fun (tag, base) => (tag.getD "", base, value?)
  let under (tag : String) (space : Space) : List (Name × Option String) :=
    (rules.filter (·.1 == tag)).map fun (_, base, value?) => (⟨space, base⟩, value?)
  let visible := bindings.filter fun (tag, space) => bindings.lookup tag == some space
  let found := under "" .absent ++ visible.flatMap fun (tag, space) => under tag space
  (found.eraseDupsBy fun a b => a.1 == b.1).filterMap fun (name, value?) => value?.map (name, ·)

/-- Whether a value can identify an element: it is a name, perhaps between blanks. -/
def isElementId (value : String) : Bool :=
  isBaseName (skipSpace (skipSpace value.toList).reverse).reverse

/-! ### Open elements -/

/-- What is known of the blanks in an element. -/
inductive Spacing where
  /-- The element asks for them to be kept. -/
  | kept
  /-- The element says that they may be layout. -/
  | stated
  | guessed
  /-- Nothing was said, but there is other text in the element. -/
  | mixed
  deriving Repr, DecidableEq

/-- The spacing of an element, given that of the element around it. -/
def Spacing.inside (attributes : List (Name × String)) (outer : Spacing) : Spacing :=
  match attributes.lookup ⟨.xml, "space"⟩ with
  | some "preserve" => .kept
  | some "default" => .stated
  | _ => if outer = .mixed then .guessed else outer

inductive Item where
  | node (node : Node)
  | text (content : String)

namespace Item

def isText : Item → Bool
  | .node _ => false
  | .text _ => true

/-- Give texts to the nodes that they are behind. The text in front of all nodes is apart. -/
def gather : List Item → String × List Node
  | [] => ("", [])
  | .text first :: rest =>
    let (after, nodes) := gather rest
    (first ++ after, nodes)
  | .node first :: rest =>
    let (tail, nodes) := gather rest
    ("", first.withTail tail :: nodes)

end Item

/-- An element that has started and not finished. The content read so far is in reverse. -/
structure OpenElement where
  written : String
  name : Name
  attributes : Attributes
  bindings : Bindings
  /-- What is declared of the content. -/
  model? : Option ContentModel
  spacing : Spacing
  content : List Item

namespace OpenElement

/-- The element around everything, which is not written. -/
def outermost (bindings : Bindings) : OpenElement :=
  ⟨"", ⟨.absent, ""⟩, .ofList [], bindings, none, .guessed, []⟩

def add (node : Node) (element : OpenElement) : OpenElement :=
  { element with content := .node node :: element.content }

def addText (text : String) (element : OpenElement) : OpenElement :=
  { element with content := .text text :: element.content }

def close (element : OpenElement) : Node :=
  let (text, children) := Item.gather element.content.reverse
  .element element.name [] ⟨element.attributes, text, ""⟩ children

/-- Whether blanks are layout here, given where they end and whether the element finishes behind
them. What is declared of the content decides it; else it is guessed from what stands around. -/
def dropsBlanks (ending : RunEnd) (finishesNext : Bool) (element : OpenElement) : Bool :=
  let looksLikeLayout :=
    ending != .other && !(element.content.isEmpty && ending = .markup && finishesNext) &&
      !element.content.head?.any (·.isText) && !element.content.getLast?.any (·.isText)
  element.spacing != .kept && element.spacing != .mixed &&
    match element.model? with
    | some model => model = .elements
    | none => looksLikeLayout

/-- Put a run of literal text behind the content, unless it is layout. -/
def addRun (text : String) (ending : RunEnd) (finishesNext : Bool) (element : OpenElement) :
    OpenElement :=
  if text.toList.all isSpace && element.dropsBlanks ending finishesNext then element
  else
    let spacing := if element.spacing = .guessed then .mixed else element.spacing
    { element with spacing := spacing }.addText text

/-- Open an element inside another one. No name may stand on two attributes, even if one of them
is presumed. -/
def openInside? (outer : OpenElement) (tag : StartTag) : Option OpenElement := do
  let bindings ← declare? tag outer.bindings
  let stated ← attributes? bindings tag.written
  let sources ← attributes? bindings <| tag.attributes.filterMap fun entry =>
    entry.source?.map (entry.name, ·)
  let presumed ← attributes? bindings tag.presumed
  if !((stated ++ presumed).map (·.1)).Nodup then none
  let isWrongId (entry : WrittenAttribute) : Bool :=
    entry.name == idAttribute && entry.source?.isNone && !isElementId entry.value
  if tag.attributes.any isWrongId then none
  let name ← elementName? bindings tag.name
  let attributes := ⟨stated, sources, presumedValues bindings tag.declared⟩
  return ⟨tag.name, name, attributes, bindings, tag.model?, outer.spacing.inside stated, []⟩

end OpenElement

/-! ### Nesting -/

/-- Whether an element finishes next. The end of all events finishes the outermost one. -/
def finishesNext : List Event → Bool
  | [] => true
  | .finish _ :: _ => true
  | _ => false

/-- How many elements may be open inside each other. -/
def depthLimit : Nat := 256

/-- Put events together, given the open elements, to the element around everything. At most so many
further elements may be opened inside each other. -/
def assemble (room : Nat) : List Event → OpenElement → List OpenElement → Option Node
  | [], element, [] => some element.close
  | [], _, _ :: _ => none
  | .start tag isEmpty :: rest, element, outer => do
    if room ≤ outer.length then none
    let opened ← element.openInside? tag
    if isEmpty then assemble room rest (element.add opened.close) outer
    else assemble room rest opened (element :: outer)
  | .finish written :: rest, element, outer =>
    match outer with
    | [] => none
    | around :: outer =>
      if element.written == written then assemble room rest (around.add element.close) outer
      else none
  | .run content ending :: rest, element, outer =>
    assemble room rest (element.addRun content ending (finishesNext rest)) outer
  | .fixed content :: rest, element, outer => assemble room rest (element.addText content) outer
  | .entity name :: rest, element, outer =>
    assemble room rest (element.add (.aside (.reference name) "")) outer
  | .comment content :: rest, element, outer =>
    assemble room rest (element.add (.aside (.comment content) "")) outer
  | .instruction target content :: rest, element, outer =>
    assemble room rest (element.add (.aside (.instruction target content) "")) outer

/-- Whether all elements that are told apart by ids have different ones. -/
def hasDistinctIds (events : List Event) : Bool := (events.flatMap Event.ids).Nodup

/-- An element around a fragment, in which some tags are bound. `none` if it is malformed. The
element counts among those that are open. -/
def readFragment? (bindings : Bindings) (text : String) : Option Node := do
  let events ← Event.scan (.empty false) text.toList
  if hasDistinctIds events then assemble (depthLimit - 1) events (.outermost bindings) []
  else none

/-- The root element of a document. `none` if it is malformed: besides the root, only comments,
instructions and blanks may stand outside. -/
def readDocument? (text : String) : Option Node := do
  let (isStandalone, body) ← Declaration.open? text.toList
  let events ← Event.scanDocument isStandalone body
  if !hasDistinctIds events then none
  match (← assemble depthLimit events (.outermost builtinBindings) []).children with
  | [root] => return root
  | _ => none

end TemplateFill.Xml
