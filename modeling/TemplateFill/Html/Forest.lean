import TemplateFill.Html.Event

/-!
# Forests

A page text is put together to a forest without repairing what is missing: an end tag closes
everything up to the nearest open element of its name, and is ignored if there is none. Void
elements close at once, and one later end tag of theirs is swallowed. All text up to the
next tag is one string, unless the string is not content.
-/

namespace TemplateFill.Html

/-- A tree of a page: an element or a string. -/
inductive Tree where
  | element (name : String) (children : List Tree)
  | string (content : String)
  deriving Repr, Inhabited

def voidElements : List String :=
  ["area", "base", "br", "col", "embed", "hr", "img", "input", "keygen", "link", "menuitem",
    "meta", "param", "source", "track", "wbr", "basefont", "bgsound", "command", "frame",
    "image", "isindex", "nextid", "spacer"]

/-- Elements whose strings are no content of the page. -/
def hiddenElements : List String := ["script", "style", "template", "rt", "rp"]

def blankKeepers : List String := ["pre", "textarea"]

/-- An element that is open. Its children are in reverse. -/
structure OpenElement where
  name : String
  children : List Tree

/-- A forest under construction: the open elements, the innermost first, the trees outside of
them, the string that is being gathered, and the names of the void elements whose end tags
are still to be swallowed. Trees and characters are in reverse. -/
structure Builder where
  openElements : List OpenElement
  roots : List Tree
  gathered : List Char
  closedAtOnce : List String

namespace Builder

def start : Builder := ⟨[], [], [], []⟩

def isInside (names : List String) (builder : Builder) : Bool :=
  builder.openElements.any fun element => names.contains element.name

def add (tree : Tree) (builder : Builder) : Builder :=
  match builder.openElements with
  | [] => { builder with roots := tree :: builder.roots }
  | element :: outer =>
    { builder with openElements := { element with children := tree :: element.children } :: outer }

def isLayoutBlank (c : Char) : Bool :=
  c = ' ' || c = '\n' || c = '\t' || c = '\r' || c.toNat = 0xC

/-- A string made of blanks is a single line feed or space. -/
def condense (s : List Char) : List Char :=
  if s.all isLayoutBlank then (if s.contains '\n' then ['\n'] else [' ']) else s

def endString (builder : Builder) : Builder :=
  match builder.gathered with
  | [] => builder
  | gathered =>
    let s := gathered.reverse
    let content := if builder.isInside blankKeepers then s else condense s
    let ended := { builder with gathered := [] }
    if builder.isInside hiddenElements then ended else ended.add (.string (String.ofList content))

def pop (builder : Builder) : Builder :=
  match builder.openElements with
  | [] => builder
  | element :: outer =>
    { builder with openElements := outer }.add (.element element.name element.children.reverse)

def popTimes : Nat → Builder → Builder
  | 0, builder => builder
  | n + 1, builder => popTimes n builder.pop

/-- Close everything up to the nearest open element of a name. -/
def closeElement (name : String) (builder : Builder) : Builder :=
  let ended := builder.endString
  match ended.openElements.findIdx? (·.name == name) with
  | some depth => ended.popTimes (depth + 1)
  | none => ended

def openElement (name : String) (builder : Builder) : Builder :=
  let ended := builder.endString
  { ended with openElements := ⟨name, []⟩ :: ended.openElements }

/-- An end tag, unless it is to be swallowed. -/
def endTag (name : String) (builder : Builder) : Builder :=
  if builder.closedAtOnce.contains name then
    { builder with closedAtOnce := builder.closedAtOnce.erase name }
  else builder.closeElement name

/-- A start tag, which also closes a void element. -/
def startTag (name : String) (builder : Builder) : Builder :=
  let opened := builder.openElement name
  if voidElements.contains name then
    let closed := opened.closeElement name
    { closed with closedAtOnce := name :: closed.closedAtOnce }
  else opened

def step (builder : Builder) : Event → Builder
  | .startTag name => builder.startTag name
  | .emptyTag name => (builder.openElement name).closeElement name
  | .endTag name => builder.endTag name
  | .text content => { builder with gathered := content.reverse ++ builder.gathered }
  | .aside => builder.endString

/-- The forest, after all open elements are closed. -/
def finish (builder : Builder) : List Tree :=
  let ended := builder.endString
  (ended.popTimes ended.openElements.length).roots.reverse

end Builder

def forestOfEvents (events : List Event) : List Tree :=
  (events.foldl Builder.step Builder.start).finish

def readForest (html : String) : Except ScanFault (List Tree) :=
  (Event.scan html).map forestOfEvents

end TemplateFill.Html
