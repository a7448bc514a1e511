import TemplateFill.Xml.Node

/-!
# Elements of rebuilt trees

Which elements stand in a tree whose content was replaced in one place or another.
-/

namespace TemplateFill.Xml.Node

variable {node child x : Node} {nodes children : List Node}

theorem elementsOf_eq_flatMap (nodes : List Node) : elementsOf nodes = nodes.flatMap elements := by
  induction nodes with
  | nil => rfl
  | cons node rest ih => rw [elementsOf, ih, List.flatMap_cons]

theorem elementsOf_singleton (node : Node) : elementsOf [node] = node.elements := by
  rw [elementsOf, elementsOf, List.append_nil]

theorem elementsOf_append (first second : List Node) :
    elementsOf (first ++ second) = elementsOf first ++ elementsOf second := by
  simp [elementsOf_eq_flatMap]

theorem mem_elementsOf (member : node ∈ nodes) (inside : x ∈ node.elements) :
    x ∈ elementsOf nodes := by
  rw [elementsOf_eq_flatMap]
  exact List.mem_flatMap.mpr ⟨node, member, inside⟩

theorem mem_elements_self (isElement : node.name?.isSome) : node ∈ node.elements := by
  cases node with
  | element => exact List.mem_cons_self
  | aside content tail => cases isElement

theorem isNamed_iff {name : Name} : node.isNamed name ↔ node.name? = some name := by
  rw [isNamed, beq_iff_eq]

theorem exists_of_isNamed {name : Name} (named : node.isNamed name) :
    ∃ lineage traits children, node = .element name lineage traits children := by
  rw [isNamed_iff] at named
  cases node with
  | element own lineage traits children =>
    cases named
    exact ⟨lineage, traits, children, rfl⟩
  | aside content tail => cases named

/-- A node has one name. -/
theorem eq_of_isNamed {name other : Name} (named : node.isNamed name) (also : node.isNamed other) :
    name = other :=
  Option.some.inj ((isNamed_iff.mp named).symm.trans (isNamed_iff.mp also))

theorem isElement_of_isNamed {name : Name} (named : node.isNamed name) : node.name?.isSome := by
  rw [isNamed_iff.mp named]
  rfl

theorem mem_elements_of_children (inside : x ∈ elementsOf node.children) : x ∈ node.elements := by
  cases node with
  | element => exact List.mem_cons_of_mem _ inside
  | aside content tail => cases inside

theorem isElement_of_children (inside : x ∈ elementsOf node.children) : node.name?.isSome := by
  cases node with
  | element => rfl
  | aside content tail => cases inside

theorem children_withChildren (isElement : node.name?.isSome) (children : List Node) :
    (node.withChildren children).children = children := by
  cases node with
  | element => rfl
  | aside content tail => cases isElement

/-- Elements of new content are elements of the element around it. -/
theorem mem_elements_withChildren (isElement : node.name?.isSome)
    (inside : x ∈ elementsOf children) : x ∈ (node.withChildren children).elements := by
  cases node with
  | element => exact List.mem_cons_of_mem _ inside
  | aside content tail => cases isElement

@[simp] theorem name?_withChildren (node : Node) (children : List Node) :
    (node.withChildren children).name? = node.name? := by
  cases node <;> rfl

theorem isNamed_withChildren (name : Name) (node : Node) (children : List Node) :
    (node.withChildren children).isNamed name = node.isNamed name := by
  rw [isNamed, name?_withChildren, isNamed]

@[simp] theorem name?_setText (node : Node) (text : String) :
    (node.setText text).name? = node.name? := by
  cases node <;> rfl

@[simp] theorem children_setText (node : Node) (text : String) :
    (node.setText text).children = node.children := by
  cases node <;> rfl

@[simp] theorem name?_prune (p : Node → Bool) (node : Node) :
    (node.prune p).name? = node.name? := by
  cases node <;> rfl

@[simp] theorem name?_copy (index : Nat) (node : Node) : (node.copy index).name? = node.name? := by
  cases node <;> rfl

/-! ### Replaced children -/

theorem mem_replaceFirst {p : Node → Bool} {old : Node} (member : old ∈ nodes) (h : p old) :
    child ∈ replaceFirst p child nodes := by
  induction nodes with
  | nil => cases member
  | cons first rest ih =>
    rw [replaceFirst]
    split
    · exact List.mem_cons_self
    · rename_i other
      rcases List.mem_cons.mp member with rfl | later
      · exact absurd h other
      · exact List.mem_cons_of_mem _ (ih later)

theorem mem_replaceFirst_of_not {p : Node → Bool} (member : x ∈ nodes) (h : p x = false) :
    x ∈ replaceFirst p child nodes := by
  induction nodes with
  | nil => cases member
  | cons first rest ih =>
    rw [replaceFirst]
    split
    · rename_i isFirst
      rcases List.mem_cons.mp member with rfl | later
      · rw [h] at isFirst
        cases isFirst
      · exact List.mem_cons_of_mem _ later
    · rcases List.mem_cons.mp member with rfl | later
      · exact List.mem_cons_self
      · exact List.mem_cons_of_mem _ (ih later)

/-- Elements of a new child are elements of the element that got it. -/
theorem mem_elements_replaceChild {name : Name} {old : Node} (isChild : node.child? name = some old)
    (inside : x ∈ child.elements) : x ∈ (node.replaceChild name child).elements := by
  have member : old ∈ node.children := List.mem_of_find?_eq_some isChild
  have isElement : node.name?.isSome := by
    cases node with
    | element => rfl
    | aside content tail => cases member
  refine mem_elements_withChildren isElement (mem_elementsOf ?_ inside)
  exact mem_replaceFirst member (List.find?_some isChild)

mutual

theorem mem_elements_of_updateFirst? {name : Name} {f : Node → Node}
    (h : ∀ node, node.name?.isSome → x ∈ (f node).elements) :
    (node : Node) → {updated : Node} → updateFirst? name f node = some updated →
      x ∈ updated.elements
  | .element own lineage traits children, updated, isUpdated => by
    rw [updateFirst?] at isUpdated
    split at isUpdated
    · cases isUpdated
      exact h _ rfl
    · obtain ⟨inside, isInside, rfl⟩ := Option.map_eq_some_iff.mp isUpdated
      exact mem_elements_of_children (mem_elementsOf_of_updateFirstOf? h children isInside)

/-- What every element of a name would hold once it is rebuilt, the first one holds. -/
theorem mem_elementsOf_of_updateFirstOf? {name : Name} {f : Node → Node}
    (h : ∀ node, node.name?.isSome → x ∈ (f node).elements) :
    (nodes : List Node) → {updated : List Node} → updateFirstOf? name f nodes = some updated →
      x ∈ elementsOf updated
  | node :: rest, updated, isUpdated => by
    rw [updateFirstOf?] at isUpdated
    split at isUpdated
    · rename_i first isFirst
      cases isUpdated
      exact List.mem_append_left _ (mem_elements_of_updateFirst? h node isFirst)
    · obtain ⟨others, isOthers, rfl⟩ := Option.map_eq_some_iff.mp isUpdated
      exact List.mem_append_right _ (mem_elementsOf_of_updateFirstOf? h rest isOthers)

end

end TemplateFill.Xml.Node
