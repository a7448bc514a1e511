import TemplateFill.Proofs.Xml.Overwriting
import TemplateFill.Control.PlainText

/-!
# The mark of a placeholder

A control that was filled no longer says that it shows a placeholder. Nothing else is changed by
that: neither its content area nor what is read off its properties.
-/

namespace TemplateFill.Control

open Xml

variable {node content properties : Node}

theorem properties?_replaceContent (isArea : content.isNamed Word.controlContent) (node : Node) :
    properties? (node.replaceChild Word.controlContent content) = properties? node :=
  Node.child?_replaceChild_of_ne (by decide) isArea

/-- Properties that no longer say that there is a placeholder. -/
def unmarked (properties : Node) : Node :=
  properties.removeChildren (·.isNamed Word.placeholderMark)

theorem isNamed_unmarked (properties : Node) (name : Name) :
    (unmarked properties).isNamed name = properties.isNamed name := by
  rw [unmarked, Node.removeChildren, Node.isNamed, Node.name?_withChildren, Node.isNamed]

theorem unmarked_unmarked (properties : Node) :
    unmarked (unmarked properties) = unmarked properties := by
  cases properties with
  | element own lineage traits children =>
    simp only [unmarked, Node.removeChildren, Node.withChildren, Node.children, List.filter_filter,
      Bool.and_self]
  | aside content tail => rfl

theorem unmark_of_none (none : properties? node = none) : unmark node = node := by
  rw [unmark, none]

theorem unmark_of_some (isProperties : properties? node = some properties) :
    unmark node = node.replaceChild Word.controlProperties (unmarked properties) := by
  rw [unmark, isProperties]
  rfl

theorem isNamed_properties (isProperties : properties? node = some properties) :
    (unmarked properties).isNamed Word.controlProperties := by
  rw [isNamed_unmarked]
  exact List.find?_some isProperties

theorem content?_unmark (node : Node) : content? (unmark node) = content? node := by
  cases isProperties : properties? node with
  | none => rw [unmark_of_none isProperties]
  | some properties =>
    rw [unmark_of_some isProperties]
    exact Node.child?_replaceChild_of_ne (by decide) (isNamed_properties isProperties)

theorem properties?_unmark (node : Node) :
    properties? (unmark node) = (properties? node).map unmarked := by
  cases isProperties : properties? node with
  | none => rw [unmark_of_none isProperties, isProperties]; rfl
  | some properties =>
    rw [unmark_of_some isProperties]
    exact Node.child?_replaceChild isProperties (isNamed_properties isProperties)

theorem unmark_unmark (node : Node) : unmark (unmark node) = unmark node := by
  cases isProperties : properties? node with
  | none => rw [unmark_of_none isProperties, unmark_of_none isProperties]
  | some properties =>
    have left := properties?_unmark node
    rw [isProperties, Option.map_some] at left
    rw [unmark_of_some left, unmarked_unmarked]
    exact Node.replaceChild_self left

theorem unmark_replaceContent (isArea : content.isNamed Word.controlContent) (node : Node) :
    unmark (node.replaceChild Word.controlContent content) =
      (unmark node).replaceChild Word.controlContent content := by
  have same := properties?_replaceContent isArea node
  cases isProperties : properties? node with
  | none =>
    rw [isProperties] at same
    rw [unmark_of_none same, unmark_of_none isProperties]
  | some properties =>
    rw [isProperties] at same
    rw [unmark_of_some same, unmark_of_some isProperties]
    exact Node.replaceChild_comm (by decide) (isNamed_properties isProperties) isArea

/-! ### Reading -/

/-- What a control takes is only read off its properties. -/
theorem read_congr {first second : Node} (same : properties? first = properties? second) :
    read first = read second := by
  rw [read, read, same]

theorem read_replaceContent (isArea : content.isNamed Word.controlContent) (node : Node) :
    read (node.replaceChild Word.controlContent content) = read node :=
  read_congr (properties?_replaceContent isArea node)

/-- Below unmarked properties everything but marks of placeholders is left, if these are empty. -/
theorem filter_elementsOf_unmarked {nodes : List Node} {q : Node → Bool}
    (misses : ∀ x, x.isNamed Word.placeholderMark → q x = false)
    (empty : ∀ x ∈ nodes, x.isNamed Word.placeholderMark → x.children = []) :
    (Node.elementsOf (nodes.filter (!·.isNamed Word.placeholderMark))).filter q =
      (Node.elementsOf nodes).filter q := by
  rw [Node.elementsOf_eq_flatMap, Node.elementsOf_eq_flatMap, List.filter_flatMap,
    List.filter_flatMap]
  refine Node.flatMap_filter fun x member isMark => ?_
  rw [Bool.not_eq_false'] at isMark
  obtain ⟨lineage, traits, children, rfl⟩ := Node.exists_of_isNamed isMark
  obtain rfl : children = [] := empty _ member isMark
  rw [Node.elements, Node.elementsOf, List.filter_cons_of_neg (by rw [misses _ isMark]; decide)]
  rfl

theorem children_unmarked (properties : Node) :
    (unmarked properties).children =
      properties.children.filter (!·.isNamed Word.placeholderMark) := by
  cases properties <;> rfl

theorem isMarked_unmarked {mark : Name} (other : mark ≠ Word.placeholderMark)
    (empty : ∀ x ∈ properties.children, x.isNamed Word.placeholderMark → x.children = []) :
    isMarked mark (unmarked properties) = isMarked mark properties := by
  have only (nodes : List Node) :
      nodes.any (·.isNamed mark) = (nodes.filter (·.isNamed mark)).any (·.isNamed mark) := by
    simp only [List.any_filter, Bool.and_self]
  rw [isMarked, isMarked, children_unmarked, only,
    filter_elementsOf_unmarked (Node.isNamed_apart other.symm) empty, ← only]

theorem filter_names (q : Name → Bool) (nodes : List Node) :
    (nodes.filterMap Node.name?).filter q =
      (nodes.filter fun x => x.name?.any q).filterMap Node.name? := by
  induction nodes with
  | nil => rfl
  | cons node rest ih =>
    cases own : node.name? with
    | none => simp [own, ih]
    | some name =>
      by_cases fits : q name
      · simp [own, fits, ih]
      · simp [own, fits, ih]

theorem foreignTypes_unmarked
    (empty : ∀ x ∈ properties.children, x.isNamed Word.placeholderMark → x.children = []) :
    foreignTypes (unmarked properties) = foreignTypes properties := by
  have misses : ∀ x : Node, x.isNamed Word.placeholderMark →
      x.name?.any (foreignMarks.contains ·) = false := by
    intro x isMark
    rw [Node.isNamed_iff.mp isMark]
    decide
  cases properties with
  | element own lineage traits children =>
    have names (children : List Node) :
        ((Node.element own lineage traits children).elements.filterMap Node.name?).filter
            (foreignMarks.contains ·) =
          [own].filter (foreignMarks.contains ·) ++
            ((Node.elementsOf children).filter fun x =>
              x.name?.any (foreignMarks.contains ·)).filterMap Node.name? := by
      rw [← filter_names, ← List.filter_append]
      rfl
    have below := filter_elementsOf_unmarked misses empty
    rw [foreignTypes, foreignTypes, unmarked, Node.removeChildren, Node.withChildren, names, names]
    exact congrArg (fun left => List.map _ (_ ++ List.filterMap Node.name? left)) below
  | aside content tail => rfl

theorem kindOfTagged_unmarked (tag : String)
    (empty : ∀ x ∈ properties.children, x.isNamed Word.placeholderMark → x.children = []) :
    kindOfTagged tag (unmarked properties) = kindOfTagged tag properties := by
  rw [kindOfTagged, kindOfTagged, foreignTypes_unmarked empty,
    isMarked_unmarked (by decide) empty, isMarked_unmarked (by decide) empty]

theorem tagNode?_unmarked
    (empty : ∀ x ∈ properties.children, x.isNamed Word.placeholderMark → x.children = []) :
    tagNode? (unmarked properties) = tagNode? properties := by
  rw [tagNode?, tagNode?, children_unmarked, ← List.head?_filter, ← List.head?_filter,
    filter_elementsOf_unmarked (Node.isNamed_apart (by decide)) empty]

/-- The marks of a placeholder that a control takes away hold nothing. -/
def HasBareMarks (node : Node) : Prop :=
  ∀ properties, properties? node = some properties →
    ∀ x ∈ properties.children, x.isNamed Word.placeholderMark → x.children = []

/-- A control is read as before once it is unmarked. -/
theorem read_unmark (bare : HasBareMarks node) : read (unmark node) = read node := by
  rw [read, read, properties?_unmark]
  cases isProperties : properties? node with
  | none => rfl
  | some properties =>
    have below := bare properties isProperties
    simp only [Option.map_some, Option.bind_some, tagNode?_unmarked below]
    cases tagNode? properties with
    | none => rfl
    | some tagNode =>
      simp only [Option.map_some, kindOfTagged_unmarked _ below]

/-- A control that was written into is read as before. -/
theorem read_unmark_replaceContent (bare : HasBareMarks node)
    (isArea : content.isNamed Word.controlContent) :
    read (unmark (node.replaceChild Word.controlContent content)) = read node := by
  have still : HasBareMarks (node.replaceChild Word.controlContent content) := by
    intro properties isProperties
    rw [properties?_replaceContent isArea] at isProperties
    exact bare properties isProperties
  rw [read_unmark still, read_replaceContent isArea]

end TemplateFill.Control
