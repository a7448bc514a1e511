import TemplateFill.Walk.Progress

/-!
# The walk

A walk goes over a tree in document order and binds every control that it reaches to data.
A control is filled, or removed because its condition does not hold, or left with a problem.
Below a conditional control whose condition holds the walk goes on with the same scope; below
a repeating section it goes on in a copy of what is repeated for each item, with the item as
the scope.

The recursion ends because the trees shrink: what is repeated is smaller than its section,
and a copy is as large as its model.
-/

namespace TemplateFill.Walk

open Xml

def writePlainText (options : Options) (tag : String) (value : Datum) (node : Node) :
    Walk Node := do
  tell (.writing tag value)
  let (filled, outcome) :=
    match Scope.stringify value with
    | .error cause => (node, .broken cause)
    | .ok text => Control.fillPlainText tag options.replaceLineBreaks text node
  noteOutcome node.lineage tag outcome
  return filled

/-- Turn a value into paragraphs or runs with the lists of a store, and keep the lists in it,
which stay even if the rest cannot be written. -/
def convertWith (inParagraph : Bool) (value : Datum) (lists : ListStore) :
    Walk (Except Fault (List Node)) :=
  match lists.convert value with
  | .error cause => return .error cause
  | .ok (blocks, allocator) => do
    tell (.converted blocks.length)
    if lists.lacksRoot allocator then tell .addedNumbering
    let (kept, fault) := lists.keep allocator
    modify fun progress => { progress with lists := kept }
    match fault with
    | some cause => return .error (.numeral cause)
    | none => return Block.render inParagraph blocks

def convertValue (inParagraph : Bool) (value : Datum) : Walk (Except Fault (List Node)) := do
  convertWith inParagraph value (← get).lists

def writeRichText (place : Place) (tag : String) (value : Datum) (node : Node) : Walk Node :=
  if Control.isPlainTextOnly node then do
    note node.lineage (.plainTextControl tag)
    return node
  else
    match Control.content? node with
    | none => do
      note node.lineage (.noContent tag)
      return node
    | some content => do
      match ← convertValue place.inParagraph value with
      | .error cause =>
        note node.lineage (.fault cause tag)
        return node
      | .ok rendered => return Control.fillRichText place.inParagraph rendered content node

/-- What a repeating section repeats, without the ids, which must not occur twice; the first
thing in its content area has to be a control. -/
def sectionItem (tag : String) (node : Node) : Except Problem Node :=
  match Control.content? node with
  | none => .error (.noItem tag)
  | some content =>
    match content.children.head? with
    | none => .error (.noItem tag)
    | some item =>
      if Control.isControl item then .ok (item.prune (·.isNamed Word.identifier))
      else .error (.wrongItem tag)

theorem size_sectionItem {tag : String} {node item : Node} (h : sectionItem tag node = .ok item) :
    item.size < node.size := by
  unfold sectionItem at h
  split at h
  · cases h
  · rename_i content hcontent
    split at h
    · cases h
    · rename_i child hchild
      split at h
      · cases h
        have inContent : child ∈ content.children := List.mem_of_head? hchild
        have inNode : content ∈ node.children := List.mem_of_find?_eq_some hcontent
        have shrunk := Node.size_prune_le (·.isNamed Word.identifier) child
        have below := Node.size_lt_of_mem_children inContent
        have belowNode := Node.size_lt_of_mem_children inNode
        omega
      · cases h

/-- A section with other items in its content area. -/
def withItems (items : List Node) (node : Node) : Node :=
  match Control.content? node with
  | none => node
  | some content =>
    node.replaceChild Word.controlContent (content.withChildren items)

/-- What is left of a hidden control: nothing, but a table cell gets a paragraph in its
place, and a control without a parent has nothing to be removed from. -/
def hide (place : Place) (node : Node) : List Node :=
  match place.parent with
  | none => [node]
  | some parent => if parent = Word.cell then [Word.makeParagraph []] else []

/-- The place of what is in a copy of the item of a section. -/
def Place.ofItem (place : Place) : Place :=
  ((place.enter Word.control).enter Word.controlContent).enter Word.control

/-- Show or hide a conditional control; `below` walks over what is in it. -/
def judge (place : Place) (tag condition : String) (scope : Datum) (node : Node)
    (below : Walk (List Node)) : Walk (List Node) :=
  match Condition.evaluate condition scope with
  | .error cause => do
    note node.lineage (.fault cause tag)
    return [node]
  | .ok verdict => do
    if let some complaint := verdict.complaint then
      note node.lineage (.badCondition condition complaint)
    if verdict.holds || verdict.complaint.isSome then
      return [node.withChildren (← below)]
    else do
      tell (.removed tag)
      return hide place node

/-- Repeat the item of a section for a list of values; `repetition` copies and binds it. -/
def repeatItem (tag : String) (value : Datum) (node : Node)
    (repetition : (item : Node) → sectionItem tag node = .ok item → List Datum →
      Walk (List Node × Option Fault)) : Walk (List Node) :=
  match value with
  | .list values =>
    match h : sectionItem tag node with
    | .error problem => do
      note node.lineage problem
      return [node]
    | .ok item => do
      let (copies, fault) ← repetition item h values
      match fault with
      | some cause => note node.lineage (.fault cause tag)
      | none => tell (.repeated tag values.length)
      return [withItems copies node]
  | _ => do
    note node.lineage (.notList tag)
    return [node]

/-- Put what its tag selects into a control, as its kind demands. -/
def bindValue (options : Options) (place : Place) (kind : Control.Kind) (tag : String)
    (scope : Datum) (node : Node)
    (repetition : (item : Node) → sectionItem tag node = .ok item → List Datum →
      Walk (List Node × Option Fault)) : Walk (List Node) :=
  match Scope.resolve scope tag with
  | .error (.refused query cause) => do
    note node.lineage (.lookup (.refused query cause) tag)
    return [node]
  | .error (.fault cause) => do
    note node.lineage (.fault cause tag)
    return [node]
  | .ok none => do
    note node.lineage (.noData tag)
    return [node]
  | .ok (some value) =>
    match kind with
    | .plainText => return [← writePlainText options tag value node]
    | .richText => return [← writeRichText place tag value node]
    | _ => repeatItem tag value node repetition

/-- The first of three measures may stay as it is if the second one falls. -/
theorem lex_of_le {a b k l m n : Nat} (le : a ≤ b) (lt : k < l) :
    Prod.Lex (· < ·) (Prod.Lex (· < ·) (· < ·)) (a, k, m) (b, l, n) := by
  rcases Nat.lt_or_eq_of_le le with h | rfl
  · exact .left _ _ h
  · exact .right _ (.left _ _ lt)

mutual

def populateAll (options : Options) (place : Place) (scope : Datum) :
    List Node → Walk (List Node)
  | [] => pure []
  | node :: rest => do
    let here ← populateNode options place scope node
    let others ← populateAll options place scope rest
    return here ++ others
termination_by nodes => (Node.sizeOfAll nodes, 2, 0)
decreasing_by
  · exact lex_of_le (by simp [Node.sizeOfAll]) (by omega)
  · have := Node.size_pos node
    exact .left _ _ (by simp only [Node.sizeOfAll]; omega)

def populateNode (options : Options) (place : Place) (scope : Datum) :
    Node → Walk (List Node)
  | .element name lineage traits children =>
    if name = Word.control then
      populateControl options place scope (.element name lineage traits children)
    else do
      let children ← populateAll options (place.enter name) scope children
      return [.element name lineage traits children]
  | node => pure [node]
termination_by node => (node.size, 1, 0)
decreasing_by
  · exact lex_of_le (Nat.le_refl _) (by omega)
  · exact .left _ _ (by simp [Node.size])

def populateControl (options : Options) (place : Place) (scope : Datum) (node : Node) :
    Walk (List Node) :=
  let control := Control.read node
  let tag := control.label
  match control.kind with
  | .unsupported obstacle => do
    note node.lineage (.unsupported obstacle)
    return [node]
  | kind => do
    tell (.processing tag)
    match control.condition? with
    | some condition =>
      if kind = .repeatingSection then do
        note node.lineage (.conditionalSection tag)
        return [node]
      else
        judge place tag condition scope node
          (populateAll options (place.enter Word.control) scope node.children)
    | none =>
      bindValue options place kind tag scope node fun item _ values =>
        populateItems options place.ofItem tag node.lineage item 0 values
termination_by (node.size, 0, 0)
decreasing_by
  · exact .left _ _ (Node.sizeOfAll_children_lt node)
  · exact .left _ _ (size_sectionItem (by assumption))

/-- Copy the item of a section for each object among some values, and bind the copy to it.
A value that is no object is a problem of the section, and one that cannot even be shown
ends it. -/
def populateItems (options : Options) (place : Place) (tag : String) (subject : Lineage)
    (item : Node) (index : Nat) : List Datum → Walk (List Node × Option Fault)
  | [] => pure ([], none)
  | .object members :: rest => do
    let model := item.copy index
    let children ← populateAll options place (.object members) model.children
    let (copies, fault) ← populateItems options place tag subject item (index + 1) rest
    return (model.withChildren children :: copies, fault)
  | value :: rest =>
    match Scope.stringify value with
    | .error cause => pure ([], some cause)
    | .ok shown => do
      note subject (.notObject shown tag)
      populateItems options place tag subject item (index + 1) rest
termination_by values => (item.size, 3, values.length)
decreasing_by
  · refine lex_of_le ?_ (by omega)
    rw [← Node.size_copy index item]
    exact Nat.le_of_lt (Node.sizeOfAll_children_lt _)
  · exact .right _ (.right _ (by simp))
  · exact .right _ (.right _ (by simp))

end

/-- Bind the controls below a root, which has no parent itself. -/
def populate (options : Options) (root : Node) (scope : Datum) : Walk Node := do
  return root.withChildren (← populateAll options (.ofRoot root) scope root.children)

mutual

/-- Bind the control of a lineage below a node. -/
def populateBelow (options : Options) (scope : Datum) (target : Lineage) (place : Place) :
    Node → Walk Node
  | .element name lineage traits children => do
    let children ← populateAmong options scope target (place.enter name) children
    return .element name lineage traits children
  | node => pure node

/-- Bind the control of a lineage among and below some nodes. -/
def populateAmong (options : Options) (scope : Datum) (target : Lineage) (place : Place) :
    List Node → Walk (List Node)
  | [] => pure []
  | node :: rest => do
    let here ←
      if node.lineage = target then populateControl options place scope node
      else (populateBelow options scope target place node).map ([·])
    return here ++ (← populateAmong options scope target place rest)

end

/-- Bind a control that has no parent. It stays even if its condition does not hold. -/
def populateSingle (options : Options) (scope : Datum) (node : Node) : Walk Node := do
  return (← populateControl options .outside scope node).headD node

end TemplateFill.Walk
