import TemplateFill.Proofs.Xml.Rebuilding

/-!
# The first element of a name

Where only the first element of a name is kept, at most one is left, and a tree with no more
than one stays as it is. How many there are is all that matters, so elements are counted.
-/

namespace TemplateFill.Xml.Node

/-- How many elements of a name there are among and below some nodes. -/
def tally (name : Name) (nodes : List Node) : Nat := (elementsOf nodes).countP (·.isNamed name)

section Tally

variable {name : Name}

@[simp] theorem tally_nil : tally name [] = 0 := rfl

theorem tally_append (first second : List Node) :
    tally name (first ++ second) = tally name first + tally name second := by
  rw [tally, elementsOf_append, List.countP_append]
  rfl

theorem tally_cons (node : Node) (rest : List Node) :
    tally name (node :: rest) = tally name [node] + tally name rest :=
  tally_append [node] rest

/-- A node counts itself and what is below it. -/
theorem tally_singleton (node : Node) :
    tally name [node] = (if node.isNamed name then 1 else 0) + tally name node.children := by
  rw [tally, elementsOf_singleton]
  cases node with
  | element own lineage traits children =>
    rw [elements, List.countP_cons, Nat.add_comm]
    rfl
  | aside content tail => rfl

theorem length_named (node : Node) : (node.named name).length = tally name [node] := by
  rw [named, tally, elementsOf, elementsOf, List.append_nil, List.countP_eq_length_filter]

theorem tally_eq_zero_iff {nodes : List Node} :
    tally name nodes = 0 ↔ ∀ x ∈ elementsOf nodes, ¬ x.isNamed name := by
  rw [tally, List.countP_eq_zero]

end Tally

/-! ### Keeping the first -/

section KeepFirst

variable (name : Name)

@[simp] theorem name?_keepFirst (seen : Bool) (node : Node) :
    (keepFirst name seen node).1.name? = node.name? := by
  cases node <;> rfl

@[simp] theorem isNamed_keepFirst (other : Name) (seen : Bool) (node : Node) :
    (keepFirst name seen node).1.isNamed other = node.isNamed other := by
  rw [isNamed, name?_keepFirst, isNamed]

mutual

/-- Below a node one element is left, if there was any and none was seen before; the flag says
whether one has been seen. -/
theorem tally_keepFirst (seen : Bool) : (node : Node) →
    tally name (keepFirst name seen node).1.children =
        (if seen then 0 else min 1 (tally name node.children)) ∧
      (keepFirst name seen node).2 = (seen || decide (0 < tally name node.children))
  | .element _ _ _ children => tally_keepFirstOf seen children
  | .aside _ _ => by simp [keepFirst, children]

theorem tally_keepFirstOf (seen : Bool) : (nodes : List Node) →
    tally name (keepFirstOf name seen nodes).1 =
        (if seen then 0 else min 1 (tally name nodes)) ∧
      (keepFirstOf name seen nodes).2 = (seen || decide (0 < tally name nodes))
  | [] => by simp [keepFirstOf]
  | node :: rest => by
    rw [keepFirstOf, tally_cons, tally_singleton]
    split
    · rename_i skipped
      obtain ⟨isSeen, -⟩ := (Bool.and_eq_true _ _).mp skipped
      obtain ⟨others, flag⟩ := tally_keepFirstOf seen rest
      rw [others, flag, isSeen]
      simp
    · rename_i notSkipped
      obtain ⟨here, flagHere⟩ := tally_keepFirst (seen || node.isNamed name) node
      obtain ⟨others, flag⟩ :=
        tally_keepFirstOf (keepFirst name (seen || node.isNamed name) node).2 rest
      rw [flagHere] at others flag
      simp only [tally_cons, tally_singleton (keepFirst _ _ _).1, isNamed_keepFirst, here, others,
        flag, flagHere]
      cases isSeen : seen with
      | true =>
        have other : node.isNamed name = false := by simpa [isSeen] using notSkipped
        simp [other]
      | false =>
        cases isFirst : node.isNamed name with
        | true =>
          simp
          omega
        | false =>
          by_cases below : 0 < tally name node.children
          · simp [below]
            omega
          · simp [below]
            omega

end

mutual

/-- Nothing is removed where there is no more than one element, or none if one was seen. -/
theorem keepFirst_eq_self (seen : Bool) : (node : Node) → tally name node.children ≤ 1 →
    (seen → tally name node.children = 0) → (keepFirst name seen node).1 = node
  | .element own lineage traits children, few, nothing => by
    have kept := keepFirstOf_eq_self seen children few nothing
    simp only [keepFirst, kept]
  | .aside _ _, _, _ => rfl

theorem keepFirstOf_eq_self (seen : Bool) : (nodes : List Node) → tally name nodes ≤ 1 →
    (seen → tally name nodes = 0) → (keepFirstOf name seen nodes).1 = nodes
  | [], _, _ => rfl
  | node :: rest, few, nothing => by
    rw [tally_cons, tally_singleton] at few nothing
    rw [keepFirstOf]
    split
    · rename_i skipped
      obtain ⟨isSeen, isFirst⟩ := (Bool.and_eq_true _ _).mp skipped
      have gone := nothing isSeen
      rw [if_pos isFirst] at gone
      omega
    · have flag := (tally_keepFirst name (seen || node.isNamed name) node).2
      have here := keepFirst_eq_self (seen || node.isNamed name) node (by omega) (by
        intro before
        rcases (Bool.or_eq_true _ _).mp before with isSeen | isFirst
        · have gone := nothing isSeen
          omega
        · rw [if_pos isFirst] at few
          omega)
      have others := keepFirstOf_eq_self (keepFirst name (seen || node.isNamed name) node).2 rest
        (by omega) (by
          intro before
          rw [flag] at before
          simp only [Bool.or_eq_true, decide_eq_true_eq] at before
          rcases before with (isSeen | isFirst) | below
          · have gone := nothing isSeen
            omega
          · rw [if_pos isFirst] at few
            omega
          · omega)
      simp only [here, others]

end

/-- Below an element of another name no more than one element is left. -/
theorem length_named_keepFirst {name : Name} {node : Node} (other : node.isNamed name = false) :
    ((node.keepFirst name false).1.named name).length = min 1 (node.named name).length := by
  rw [length_named, length_named, tally_singleton, isNamed_keepFirst, other,
    (tally_keepFirst name false node).1, tally_singleton node, other]
  simp only [Bool.false_eq_true, if_false, Nat.zero_add]

theorem eq_of_named_keepFirst {name : Name} {node first x : Node} {rest : List Node}
    (other : node.isNamed name = false)
    (isFirst : (node.keepFirst name false).1.named name = first :: rest)
    (inside : x ∈ (node.keepFirst name false).1.elements) (named : x.isNamed name) : x = first := by
  have few := Nat.le_trans (Nat.le_of_eq (length_named_keepFirst other)) (Nat.min_le_left _ _)
  have member : x ∈ (node.keepFirst name false).1.named name := List.mem_filter.mpr ⟨inside, named⟩
  rw [isFirst] at few member
  obtain rfl : rest = [] := List.eq_nil_of_length_eq_zero (by simpa using few)
  exact List.mem_singleton.mp member

/-! ### What is left of an element -/

mutual

/-- Every element that is left was there before, with the same name and attributes, around what is
left of its content. -/
theorem exists_of_mem_keepFirst {x : Node} (seen : Bool) : (node : Node) →
    x ∈ (keepFirst name seen node).1.elements →
      ∃ y ∈ node.elements, y.name? = x.name? ∧ y.attributes = x.attributes ∧
        ∃ before, x.children = (keepFirstOf name before y.children).1
  | .element own lineage traits children, inside => by
    rcases mem_elements_element.mp inside with rfl | below
    · exact ⟨_, List.mem_cons_self, rfl, rfl, seen, rfl⟩
    · obtain ⟨y, within, same⟩ := exists_of_mem_keepFirstOf seen children below
      exact ⟨y, List.mem_cons_of_mem _ within, same⟩

theorem exists_of_mem_keepFirstOf {x : Node} (seen : Bool) : (nodes : List Node) →
    x ∈ elementsOf (keepFirstOf name seen nodes).1 →
      ∃ y ∈ elementsOf nodes, y.name? = x.name? ∧ y.attributes = x.attributes ∧
        ∃ before, x.children = (keepFirstOf name before y.children).1
  | node :: rest, inside => by
    rw [keepFirstOf] at inside
    split at inside
    · obtain ⟨y, within, same⟩ := exists_of_mem_keepFirstOf seen rest inside
      exact ⟨y, List.mem_append_right _ within, same⟩
    · rcases List.mem_append.mp inside with here | later
      · obtain ⟨y, within, same⟩ := exists_of_mem_keepFirst _ node here
        exact ⟨y, List.mem_append_left _ within, same⟩
      · obtain ⟨y, within, same⟩ := exists_of_mem_keepFirstOf _ rest later
        exact ⟨y, List.mem_append_right _ within, same⟩

end

theorem mem_keepFirstOf {child : Node} {nodes : List Node} {seen : Bool}
    (member : child ∈ (keepFirstOf name seen nodes).1) :
    ∃ node ∈ nodes, ∃ before, child = (keepFirst name before node).1 := by
  induction nodes generalizing seen with
  | nil => cases member
  | cons first rest ih =>
    rw [keepFirstOf] at member
    split at member
    · obtain ⟨node, among, same⟩ := ih member
      exact ⟨node, List.mem_cons_of_mem _ among, same⟩
    · rcases List.mem_cons.mp member with rfl | later
      · exact ⟨first, List.mem_cons_self, _, rfl⟩
      · obtain ⟨node, among, same⟩ := ih later
        exact ⟨node, List.mem_cons_of_mem _ among, same⟩

end KeepFirst

end TemplateFill.Xml.Node
