import TemplateFill.Xml.Aside
import TemplateFill.Xml.Attributes

/-!
# Nodes

A node is an element or an aside, such as a comment. Text belongs to nodes: an element has the text
before its first child, and every node has the text behind it, its tail, which goes where the node
goes. So to remove nodes is to filter them, and the text behind them is gone as well.

Every element carries a lineage, which tells it from all other elements of a run even if they look
alike; elements that nobody refers to have the empty one. A copy of an element extends the lineage
of its model, so that lineages stay distinct when a model is replaced by its copies.

The operations here either look below a node in document order or rebuild it.
-/

namespace TemplateFill.Xml

/-- The identity of an element: a number given when it was read, and one more for each copy
on the way to it. -/
abbrev Lineage := List Nat

/-- What an element says besides its name and its children. -/
structure Traits where
  attributes : Attributes
  /-- The text before the first child. -/
  text : String
  /-- The text behind the element. -/
  tail : String
  deriving Repr, DecidableEq, Inhabited

/-- Traits of an element without texts. -/
def Traits.ofList (stated : List (Name × String)) : Traits := ⟨.ofList stated, "", ""⟩

inductive Node where
  | element (name : Name) (lineage : Lineage) (traits : Traits) (children : List Node)
  | aside (content : Aside) (tail : String)
  deriving Repr, Inhabited

namespace Node

def name? : Node → Option Name
  | .element name _ _ _ => some name
  | .aside _ _ => none

def isNamed (name : Name) (node : Node) : Bool := node.name? == some name

def lineage : Node → Lineage
  | .element _ lineage _ _ => lineage
  | .aside _ _ => []

def attributes : Node → Attributes
  | .element _ _ traits _ => traits.attributes
  | .aside _ _ => .ofList []

def attribute? (name : Name) (node : Node) : Option String := node.attributes.lookup name

/-- The text of an element before its first child. -/
def text : Node → String
  | .element _ _ traits _ => traits.text
  | .aside _ _ => ""

def tail : Node → String
  | .element _ _ traits _ => traits.tail
  | .aside _ tail => tail

def children : Node → List Node
  | .element _ _ _ children => children
  | .aside _ _ => []

/-- Rebuild an element around another content. -/
def withChildren (children : List Node) : Node → Node
  | .element name lineage traits _ => .element name lineage traits children
  | node => node

def withTail (tail : String) : Node → Node
  | .element name lineage traits children =>
    .element name lineage { traits with tail := tail } children
  | .aside content _ => .aside content tail

/-- An element without texts that nobody refers to. -/
def plain (name : Name) (attributes : List (Name × String)) (children : List Node) : Node :=
  .element name [] (.ofList attributes) children

def setAttribute (name : Name) (value : String) : Node → Node
  | .element own lineage traits children =>
    .element own lineage { traits with attributes := traits.attributes.set name value } children
  | node => node

/-- Set the text of an element before its first child. -/
def setText (content : String) : Node → Node
  | .element name lineage traits children =>
    .element name lineage { traits with text := content } children
  | node => node

mutual

/-- A node and all elements below it in document order. -/
def elements : Node → List Node
  | .element name lineage traits children =>
    .element name lineage traits children :: elementsOf children
  | _ => []

/-- All elements among and below some nodes in document order. -/
def elementsOf : List Node → List Node
  | [] => []
  | node :: rest => elements node ++ elementsOf rest

end

mutual

def size : Node → Nat
  | .element _ _ _ children => sizeOfAll children + 1
  | _ => 1

def sizeOfAll : List Node → Nat
  | [] => 0
  | node :: rest => size node + sizeOfAll rest

end

mutual

/-- Remove every node below a node that satisfies `p`. -/
def prune (p : Node → Bool) : Node → Node
  | .element name lineage traits children =>
    .element name lineage traits (pruneAll p children)
  | node => node

/-- Remove every node among and below some nodes that satisfies `p`. -/
def pruneAll (p : Node → Bool) : List Node → List Node
  | [] => []
  | node :: rest => if p node then pruneAll p rest else prune p node :: pruneAll p rest

end

mutual

/-- Rebuild every element of a tree, the inner ones first. -/
def mapElements (f : Node → Node) : Node → Node
  | .element name lineage traits children =>
    f (.element name lineage traits (mapAllElements f children))
  | node => node

def mapAllElements (f : Node → Node) : List Node → List Node
  | [] => []
  | node :: rest => mapElements f node :: mapAllElements f rest

end

/-- Rebuild the elements of one name. -/
def mapNamed (name : Name) (f : Node → Node) : Node → Node :=
  mapElements fun node => if node.isNamed name then f node else node

mutual

/-- Keep the first element of a name below a node, unless one was seen before, and remove
the others. The flag that comes back says whether one has been seen. -/
def keepFirst (name : Name) (seen : Bool) : Node → Node × Bool
  | .element own lineage traits children =>
    let (kept, seen) := keepFirstOf name seen children
    (.element own lineage traits kept, seen)
  | node => (node, seen)

def keepFirstOf (name : Name) (seen : Bool) : List Node → List Node × Bool
  | [] => ([], seen)
  | node :: rest =>
    if seen && node.isNamed name then keepFirstOf name seen rest
    else
      let (node, seen) := keepFirst name (seen || node.isNamed name) node
      let (rest, seen) := keepFirstOf name seen rest
      (node :: rest, seen)

end

mutual

/-- Rebuild the first element of a name in a tree, in document order; `none` if there is
none. -/
def updateFirst? (name : Name) (f : Node → Node) : Node → Option Node
  | .element own lineage traits children =>
    if own = name then some (f (.element own lineage traits children))
    else (updateFirstOf? name f children).map (.element own lineage traits ·)
  | _ => none

/-- Rebuild the first element of a name among and below some nodes. -/
def updateFirstOf? (name : Name) (f : Node → Node) : List Node → Option (List Node)
  | [] => none
  | node :: rest =>
    match updateFirst? name f node with
    | some node => some (node :: rest)
    | none => (updateFirstOf? name f rest).map (node :: ·)

end

mutual

/-- Put other nodes in the place of the element of a lineage below a node. -/
def expand (lineage : Lineage) (f : Node → List Node) : Node → Node
  | .element name own traits children =>
    .element name own traits (expandAll lineage f children)
  | node => node

/-- Put other nodes in the place of the element of a lineage among and below some nodes. -/
def expandAll (lineage : Lineage) (f : Node → List Node) : List Node → List Node
  | [] => []
  | node :: rest =>
    (if node.lineage = lineage then f node else [expand lineage f node]) ++
      expandAll lineage f rest

end

/-- The elements of a name in a tree, itself included. -/
def named (name : Name) (node : Node) : List Node := node.elements.filter (·.isNamed name)

def child? (name : Name) (node : Node) : Option Node := node.children.find? (·.isNamed name)

def childrenNamed (name : Name) (node : Node) : List Node :=
  node.children.filter (·.isNamed name)

def insertFirst (nodes : List Node) (node : Node) : Node :=
  node.withChildren (nodes ++ node.children)

def removeChildren (p : Node → Bool) (node : Node) : Node :=
  node.withChildren (node.children.filter (!p ·))

/-- Put a node behind the content of an element. -/
def append (node child : Node) : Node := node.withChildren (node.children ++ [child])

def replaceFirst (p : Node → Bool) (child : Node) : List Node → List Node
  | [] => []
  | node :: rest => if p node then child :: rest else node :: replaceFirst p child rest

def replaceChild (node : Node) (name : Name) (child : Node) : Node :=
  node.withChildren (replaceFirst (·.isNamed name) child node.children)

/-! ### Sizes

The size of a tree bounds what is below it. Removing nodes never makes a tree larger, and a
copy is as large as its model.
-/

theorem size_pos (node : Node) : 0 < node.size := by
  cases node <;> simp [size]

theorem size_le_of_mem {node : Node} {nodes : List Node} (h : node ∈ nodes) :
    node.size ≤ sizeOfAll nodes := by
  induction nodes with
  | nil => cases h
  | cons first rest ih =>
    simp only [sizeOfAll]
    cases h with
    | head => omega
    | tail _ h => have := ih h; omega

theorem sizeOfAll_children_lt (node : Node) : sizeOfAll node.children < node.size := by
  cases node <;> simp [children, size, sizeOfAll]

theorem size_lt_of_mem_children {node child : Node} (h : child ∈ node.children) :
    child.size < node.size :=
  Nat.lt_of_le_of_lt (size_le_of_mem h) (sizeOfAll_children_lt node)

mutual

theorem size_prune_le (p : Node → Bool) : (node : Node) → (node.prune p).size ≤ node.size
  | .element _ _ _ children => by
    simpa [prune, size] using sizeOfAll_pruneAll_le p children
  | .aside _ _ => by simp [prune]

theorem sizeOfAll_pruneAll_le (p : Node → Bool) :
    (nodes : List Node) → sizeOfAll (pruneAll p nodes) ≤ sizeOfAll nodes
  | [] => by simp [pruneAll]
  | node :: rest => by
    have first := size_prune_le p node
    have others := sizeOfAll_pruneAll_le p rest
    unfold pruneAll
    split <;> simp only [sizeOfAll] <;> omega

end

/-- The effect of a copy on a single element. -/
def extendLineage (i : Nat) : Node → Node
  | .element name lineage traits children =>
    .element name (if lineage.isEmpty then [] else lineage ++ [i]) traits children
  | node => node

/-- The copy number `i` of a tree: all lineages in it are extended. -/
def copy (i : Nat) : Node → Node := mapElements (extendLineage i)

mutual

theorem size_copy (i : Nat) : (node : Node) → (node.copy i).size = node.size
  | .element _ _ _ children => by
    simpa [copy, mapElements, extendLineage, size] using sizeOfAll_copy i children
  | .aside _ _ => by simp [copy, mapElements]

theorem sizeOfAll_copy (i : Nat) : (nodes : List Node) →
    sizeOfAll (mapAllElements (extendLineage i) nodes) = sizeOfAll nodes
  | [] => by simp [mapAllElements]
  | node :: rest => by
    have first := size_copy i node
    have others := sizeOfAll_copy i rest
    simp only [mapAllElements, sizeOfAll, others]
    unfold copy at first
    omega

end

end Node

end TemplateFill.Xml
