import TemplateFill.Proofs.Xml.Elements

/-!
# Rebuilt trees, child by child

The operations that rebuild a tree do the same to each of its children. Over lists they are
filters and maps, so that a fact about a tree needs one induction on nodes and no second one on
lists of nodes.
-/

namespace TemplateFill.Xml.Node

/-- A fact about all nodes is shown for elements whose children have it. -/
@[elab_as_elim]
theorem induction {motive : Node → Prop}
    (element : ∀ name lineage traits children, (∀ child ∈ children, motive child) →
      motive (.element name lineage traits children))
    (aside : ∀ content tail, motive (.aside content tail)) (node : Node) : motive node := by
  cases node with
  | element name lineage traits children =>
    exact element name lineage traits children fun child _ => induction element aside child
  | aside content tail => exact aside content tail
termination_by node.size
decreasing_by
  apply size_lt_of_mem_children
  assumption

/-- A fact about nodes next to each other is shown from one about each of them, and that one is shown
for elements from the fact about their children. -/
@[elab_as_elim]
theorem forest_induction (single : Node → Prop) {motive : List Node → Prop}
    (forest : ∀ nodes, (∀ node ∈ nodes, single node) → motive nodes)
    (element : ∀ name lineage traits children, motive children →
      single (.element name lineage traits children))
    (leaf : ∀ node, node.name? = none → single node) (nodes : List Node) : motive nodes := by
  have each (node : Node) : single node := by
    induction node using Node.induction with
    | element name lineage traits children ih =>
      exact element name lineage traits children (forest children ih)
    | aside content tail => exact leaf (.aside content tail) rfl
  exact forest nodes fun node _ => each node

variable {node x : Node} {nodes : List Node}

theorem children_of_leaf (leaf : node.name? = none) : node.children = [] := by
  cases node with
  | element => cases leaf
  | aside content tail => rfl

theorem elements_of_leaf (leaf : node.name? = none) : node.elements = [] := by
  cases node with
  | element => cases leaf
  | aside content tail => rfl

theorem pruneAll_eq (p : Node → Bool) (nodes : List Node) :
    pruneAll p nodes = (nodes.filter (!p ·)).map (prune p) := by
  induction nodes with
  | nil => rfl
  | cons node rest ih =>
    rw [pruneAll, ih]
    by_cases h : p node
    · simp [h]
    · simp [h]

theorem pruneAll_eq_flatMap (p : Node → Bool) (nodes : List Node) :
    pruneAll p nodes = nodes.flatMap fun node => if p node then [] else [node.prune p] := by
  induction nodes with
  | nil => rfl
  | cons node rest ih =>
    rw [pruneAll, ih, List.flatMap_cons]
    split <;> rfl

theorem mapAllElements_eq (f : Node → Node) (nodes : List Node) :
    mapAllElements f nodes = nodes.map (mapElements f) := by
  induction nodes with
  | nil => rfl
  | cons node rest ih => rw [mapAllElements, ih, List.map_cons]

theorem expandAll_eq (lineage : Lineage) (f : Node → List Node) (nodes : List Node) :
    expandAll lineage f nodes = nodes.flatMap fun node =>
      if node.lineage = lineage then f node else [expand lineage f node] := by
  induction nodes with
  | nil => rfl
  | cons node rest ih => rw [expandAll, ih, List.flatMap_cons]

theorem mem_elementsOf_iff : x ∈ elementsOf nodes ↔ ∃ node ∈ nodes, x ∈ node.elements := by
  rw [elementsOf_eq_flatMap, List.mem_flatMap]

theorem mem_elements_element {name : Name} {lineage : Lineage} {traits : Traits}
    {children : List Node} : x ∈ (Node.element name lineage traits children).elements ↔
      x = .element name lineage traits children ∨ x ∈ elementsOf children := by
  rw [elements, List.mem_cons]

/-- What is left of a tree is made of what is left of its elements. -/
theorem elements_prune_subset (p : Node → Bool) (node : Node) :
    (node.prune p).elements ⊆ node.elements.map (prune p) := by
  induction node using Node.induction with
  | element name lineage traits children ih =>
    intro x member
    rw [prune] at member
    rcases mem_elements_element.mp member with rfl | inside
    · rw [← prune]
      exact List.mem_map_of_mem List.mem_cons_self
    · rw [pruneAll_eq] at inside
      obtain ⟨_, isPruned, within⟩ := mem_elementsOf_iff.mp inside
      obtain ⟨child, among, rfl⟩ := List.mem_map.mp isPruned
      have isChild := (List.mem_filter.mp among).1
      obtain ⟨y, isBelow, rfl⟩ := List.mem_map.mp (ih child isChild within)
      exact List.mem_map_of_mem (List.mem_cons_of_mem _ (mem_elementsOf isChild isBelow))
  | aside content tail => exact fun _ member => nomatch member

/-- What is below an element of a tree is in the tree. -/
theorem elements_subset (node : Node) : ∀ x ∈ node.elements, x.elements ⊆ node.elements := by
  induction node using Node.induction with
  | element name lineage traits children ih =>
    intro x member
    rcases mem_elements_element.mp member with rfl | inside
    · exact List.Subset.refl _
    · obtain ⟨child, among, within⟩ := mem_elementsOf_iff.mp inside
      intro y below
      exact List.mem_cons_of_mem _ (mem_elementsOf among (ih child among x within below))
  | aside content tail => exact fun _ member => nomatch member

theorem mem_elementsOf_trans {y : Node} (member : x ∈ elementsOf nodes) (below : y ∈ x.elements) :
    y ∈ elementsOf nodes := by
  obtain ⟨node, among, within⟩ := mem_elementsOf_iff.mp member
  exact mem_elementsOf among (elements_subset node x within below)

theorem replaceFirst_subset (p : Node → Bool) (new : Node) (nodes : List Node) :
    replaceFirst p new nodes ⊆ new :: nodes := by
  induction nodes with
  | nil => exact List.nil_subset _
  | cons first rest ih =>
    intro x member
    rw [replaceFirst] at member
    split at member
    · rcases List.mem_cons.mp member with rfl | later
      · exact List.mem_cons_self
      · exact List.mem_cons_of_mem _ (List.mem_cons_of_mem _ later)
    · rcases List.mem_cons.mp member with rfl | later
      · exact List.mem_cons_of_mem _ List.mem_cons_self
      · rcases List.mem_cons.mp (ih later) with rfl | among
        · exact List.mem_cons_self
        · exact List.mem_cons_of_mem _ (List.mem_cons_of_mem _ among)

end TemplateFill.Xml.Node
