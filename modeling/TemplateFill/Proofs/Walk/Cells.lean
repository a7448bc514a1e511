import TemplateFill.Proofs.Control.RichText
import TemplateFill.Proofs.Walk.Concealment

/-!
# Cells that keep a paragraph

A table cell has to hold a paragraph. A hidden control leaves one in its place if it stands right
in a cell, and so does a rich text in the first cell that it is written into. Elsewhere paragraphs
go without a substitute, so that a cell is only sure to keep one if there is a way down to it that
no data can cut off: through elements that are never removed, and through controls that stay around
what they hold.
-/

namespace TemplateFill.Walk

open Xml

/-! ### Paragraphs in cells -/

/-- There is a paragraph among or below some nodes. -/
def HoldParagraph (nodes : List Node) : Prop :=
  ∃ x ∈ Node.elementsOf nodes, x.isNamed Word.paragraph

/-- Every cell among or below some nodes holds a paragraph. -/
def CellsHold (nodes : List Node) : Prop :=
  ∀ cell ∈ Node.elementsOf nodes, cell.isNamed Word.cell → HoldParagraph cell.children

instance (nodes : List Node) : Decidable (HoldParagraph nodes) :=
  inferInstanceAs (Decidable (∃ x ∈ Node.elementsOf nodes, x.isNamed Word.paragraph))

instance (nodes : List Node) : Decidable (CellsHold nodes) :=
  inferInstanceAs (Decidable
    (∀ cell ∈ Node.elementsOf nodes, cell.isNamed Word.cell → HoldParagraph cell.children))

/-! ### Ways down to a paragraph -/

/-- The elements that may go, whatever is around them. -/
def fleetingNames : List Name := Word.identifier :: spentNames

/-- A control in an element of some name stays around what is in it, whatever the data are, or a
paragraph comes in its place. -/
def Retains (parent : Name) (control : Control) : Prop :=
  match control.kind, control.condition? with
  | .unsupported _, _ => True
  | .repeatingSection, some _ => True
  | .plainText, none => True
  | _, some _ => parent = Word.cell
  | _, none => False

/-- What a section would repeat of a node: everything but ids. -/
abbrev repeatable (node : Node) : Node := node.prune (·.isNamed Word.identifier)

/-- A node that stands in an element of some name is a paragraph, or there is a way down to one that
no data can cut off, neither in the node itself nor in what a section would repeat of it. -/
inductive Secures : Name → Node → Prop
  | paragraph {parent node} (named : node.isNamed Word.paragraph) : Secures parent node
  | element {parent name lineage traits children child} (stays : name ∉ fleetingNames)
      (other : name ≠ Word.control) (member : child ∈ children) (below : Secures name child) :
      Secures parent (.element name lineage traits children)
  | control {parent node child} (isControl : Control.isControl node)
      (retains : Retains parent (Control.read node))
      (still : Retains parent (Control.read (repeatable node))) (member : child ∈ node.children)
      (below : Secures Word.control child) : Secures parent node

/-- Every cell among or below some nodes has a child from which a way leads down to a paragraph. -/
def CellsSecured (nodes : List Node) : Prop :=
  ∀ cell ∈ Node.elementsOf nodes, cell.isNamed Word.cell →
    ∃ child ∈ cell.children, Secures Word.cell child

variable {nodes left rest others : List Node} {node child x : Node} {name parent : Name}
  {lineage : Lineage} {traits : Traits} {children inside : List Node}

namespace HoldParagraph

theorem subset (h : HoldParagraph nodes) (more : nodes ⊆ others) : HoldParagraph others := by
  obtain ⟨x, among, named⟩ := h
  obtain ⟨node, member, within⟩ := Node.mem_elementsOf_iff.mp among
  exact ⟨x, Node.mem_elementsOf (more member) within, named⟩

theorem of_named (named : node.isNamed Word.paragraph) : HoldParagraph [node] :=
  ⟨node, Node.mem_elementsOf (List.mem_singleton_self _)
    (Node.mem_elements_self (Node.isElement_of_isNamed named)), named⟩

theorem of_children (h : HoldParagraph node.children) : HoldParagraph [node] := by
  obtain ⟨x, among, named⟩ := h
  exact ⟨x, Node.mem_elementsOf (List.mem_singleton_self _) (Node.mem_elements_of_children among),
    named⟩

theorem of_mem (h : HoldParagraph [child]) (member : child ∈ nodes) : HoldParagraph nodes :=
  h.subset (List.cons_subset.mpr ⟨member, List.nil_subset _⟩)

/-- An element is a paragraph, or holds one. -/
theorem element (holds : name = Word.paragraph ∨ HoldParagraph inside) :
    HoldParagraph [.element name lineage traits inside] := by
  rcases holds with rfl | below
  · exact .of_named (beq_self_eq_true _)
  · exact .of_children below

theorem withChildren (h : HoldParagraph inside) (isElement : node.name?.isSome) :
    HoldParagraph [node.withChildren inside] := by
  refine of_children ?_
  rwa [Node.children_withChildren isElement]

end HoldParagraph

namespace CellsHold

theorem nil : CellsHold [] := fun _ inside => nomatch inside

theorem append (first : CellsHold nodes) (onward : CellsHold rest) : CellsHold (nodes ++ rest) := by
  intro x inside
  rw [Node.elementsOf_append] at inside
  rcases List.mem_append.mp inside with here | later
  · exact first x here
  · exact onward x later

theorem subset (h : CellsHold nodes) (fewer : left ⊆ nodes) : CellsHold left := by
  intro x inside
  obtain ⟨node, among, within⟩ := Node.mem_elementsOf_iff.mp inside
  exact h x (Node.mem_elementsOf (fewer among) within)

theorem cons (first : CellsHold [node]) (onward : CellsHold rest) : CellsHold (node :: rest) :=
  append first onward

theorem of_mem (h : CellsHold nodes) (member : node ∈ nodes) : CellsHold [node] :=
  h.subset (List.cons_subset.mpr ⟨member, List.nil_subset _⟩)

theorem content (h : CellsHold [node]) : CellsHold node.children := fun x inside =>
  h x (Node.mem_elementsOf (List.mem_singleton_self _) (Node.mem_elements_of_children inside))

/-- Where there is no cell, every cell holds a paragraph. -/
theorem of_none (none : ∀ x ∈ Node.elementsOf nodes, ¬ x.isNamed Word.cell) : CellsHold nodes :=
  fun x inside isCell => absurd isCell (none x inside)

theorem leaf (isLeaf : node.name? = none) : CellsHold [node] := by
  intro x inside
  rw [Node.elementsOf, Node.elementsOf, Node.elements_of_leaf isLeaf] at inside
  cases inside

theorem element (here : name = Word.cell → HoldParagraph inside) (below : CellsHold inside) :
    CellsHold [.element name lineage traits inside] := by
  intro x member isCell
  rw [Node.elementsOf_singleton] at member
  rcases Node.mem_elements_element.mp member with rfl | within
  · exact here (Option.some.inj (Node.isNamed_iff.mp isCell))
  · exact below x within isCell

/-- New content of an element that is no cell. -/
theorem withChildren (named : node.isNamed name) (other : name ≠ Word.cell)
    (below : CellsHold inside) : CellsHold [node.withChildren inside] := by
  obtain ⟨lineage, traits, children, rfl⟩ := Node.exists_of_isNamed named
  exact element (fun isCell => absurd isCell other) below

theorem replaceFirst {p : Node → Bool} {new : Node} (h : CellsHold nodes) (fresh : CellsHold [new]) :
    CellsHold (Node.replaceFirst p new nodes) :=
  (fresh.cons h).subset (Node.replaceFirst_subset p new nodes)

end CellsHold

/-! ### Secured ways -/

theorem children_repeatable (node : Node) : (repeatable node).children =
    (node.children.filter (!·.isNamed Word.identifier)).map repeatable := by
  cases node with
  | element name lineage traits children => rw [repeatable, Node.prune, Node.pruneAll_eq]; rfl
  | aside content tail => rfl

theorem repeatable_repeatable (node : Node) : repeatable (repeatable node) = repeatable node :=
  Node.prune_prune (fun x children => by rw [Node.isNamed, Node.name?_withChildren]; rfl) node

theorem read_repeatable_congr (same : x.bare = node.bare) :
    Control.read (repeatable x) = Control.read (repeatable node) := by
  rw [← Control.read_bare, Node.bare_prune isIdentifier_bare, same,
    ← Node.bare_prune isIdentifier_bare, Control.read_bare]

namespace Secures

theorem isElement (secures : Secures parent node) : node.name?.isSome := by
  cases secures with
  | paragraph named => exact Node.isElement_of_isNamed named
  | element _ _ _ _ => rfl
  | control isControl _ _ _ _ => exact Node.isElement_of_isNamed isControl

/-- A way down to a paragraph leads to one. -/
theorem holdParagraph (secures : Secures parent node) : HoldParagraph [node] := by
  induction secures with
  | paragraph named => exact .of_named named
  | element _ _ member _ ih => exact .of_children (ih.of_mem member)
  | control _ _ _ member _ ih => exact .of_children (ih.of_mem member)

/-- A way down from a control leads through a control that stays around it. -/
theorem of_isControl (secures : Secures parent node) (isControl : Control.isControl node) :
    Retains parent (Control.read node) ∧ ∃ child ∈ node.children, Secures Word.control child := by
  cases secures with
  | paragraph named =>
    have other : node.isNamed Word.control = false := Node.isNamed_apart (by decide) node named
    rw [Control.isControl, other] at isControl
    cases isControl
  | element _ other _ _ => exact absurd (Option.some.inj (Node.isNamed_iff.mp isControl)) other
  | control _ retains _ member below => exact ⟨retains, _, member, below⟩

/-- A way down from another element ends there, or leads on below it. -/
theorem of_element (secures : Secures parent (.element name lineage traits children)) :
    name = Word.paragraph ∨ ∃ child ∈ children, Secures name child := by
  cases secures with
  | paragraph named => exact .inl (Option.some.inj (Node.isNamed_iff.mp named))
  | element _ _ member below => exact .inr ⟨_, member, below⟩
  | control isControl _ _ member below =>
    obtain rfl := Option.some.inj (Node.isNamed_iff.mp isControl)
    exact .inr ⟨_, member, below⟩

/-- No node on the way is one of those that may go. -/
theorem not_isNamed (secures : Secures parent node) (fleeting : name ∈ fleetingNames) :
    ¬ node.isNamed name := by
  intro named
  cases secures with
  | paragraph isParagraph =>
    rw [Node.eq_of_isNamed named isParagraph] at fleeting
    exact absurd fleeting (by decide)
  | element stays _ _ _ => exact stays (Option.some.inj (Node.isNamed_iff.mp named) ▸ fleeting)
  | control isControl _ _ _ _ =>
    rw [Node.eq_of_isNamed named isControl] at fleeting
    exact absurd fleeting (by decide)

theorem not_isSpent (secures : Secures parent node) : ¬ IsSpent node := by
  rintro ⟨name, among, named⟩
  exact secures.not_isNamed (List.mem_cons_of_mem _ among) named

/-- What has a way down is among what a section repeats of an element. -/
theorem mem_repeatable (secures : Secures parent child) (member : child ∈ nodes) :
    Walk.repeatable child ∈ (nodes.filter (!·.isNamed Word.identifier)).map Walk.repeatable := by
  refine List.mem_map_of_mem (List.mem_filter.mpr ⟨member, ?_⟩)
  have other : ¬ child.isNamed Word.identifier := secures.not_isNamed List.mem_cons_self
  simpa using other

/-- A way down is still there in what a section repeats of the node. -/
theorem repeatable (secures : Secures parent node) : Secures parent (Walk.repeatable node) := by
  induction secures with
  | paragraph named =>
    refine .paragraph ?_
    rwa [Node.isNamed, Node.name?_prune]
  | element stays other member below ih =>
    have inside := below.mem_repeatable member
    rw [Walk.repeatable, Node.prune, Node.pruneAll_eq]
    exact .element stays other inside ih
  | control isControl _ still member below ih =>
    have inside := below.mem_repeatable member
    rw [← children_repeatable] at inside
    refine .control ?_ still ?_ inside ih
    · rwa [Control.isControl, Node.isNamed, Node.name?_prune]
    · rwa [repeatable_repeatable]

/-- Lineages are no part of a way down. -/
theorem congr (secures : Secures parent node) (same : x.bare = node.bare) : Secures parent x := by
  induction secures generalizing x with
  | paragraph named =>
    refine .paragraph ?_
    rwa [← Node.isNamed_bare, same, Node.isNamed_bare]
  | @element _ name _ _ children child stays other member below ih =>
    have named : x.isNamed name := by
      rw [← Node.isNamed_bare, same, Node.isNamed_bare]
      exact beq_self_eq_true _
    obtain ⟨lineage, traits, inside, rfl⟩ := Node.exists_of_isNamed named
    have alike := congrArg Node.children same
    rw [Node.children_bare, Node.children_bare] at alike
    have among : child.bare ∈ children.map Node.bare := List.mem_map_of_mem member
    obtain ⟨twin, isTwin, looks⟩ := List.mem_map.mp (alike ▸ among)
    exact .element stays other isTwin (ih looks)
  | @control _ node child isControl retains still member below ih =>
    have alike := congrArg Node.children same
    rw [Node.children_bare, Node.children_bare] at alike
    have among : child.bare ∈ node.children.map Node.bare := List.mem_map_of_mem member
    obtain ⟨twin, isTwin, looks⟩ := List.mem_map.mp (alike ▸ among)
    refine .control ?_ ?_ ?_ isTwin (ih looks)
    · rwa [← Control.isControl_bare, same, Control.isControl_bare]
    · rwa [← Control.read_bare, same, Control.read_bare]
    · rwa [read_repeatable_congr same]

end Secures

namespace CellsSecured

theorem subset (h : CellsSecured nodes) (fewer : left ⊆ nodes) : CellsSecured left := by
  intro x inside
  obtain ⟨node, among, within⟩ := Node.mem_elementsOf_iff.mp inside
  exact h x (Node.mem_elementsOf (fewer among) within)

theorem of_mem (h : CellsSecured nodes) (member : node ∈ nodes) : CellsSecured [node] :=
  h.subset (List.cons_subset.mpr ⟨member, List.nil_subset _⟩)

theorem content (h : CellsSecured [node]) : CellsSecured node.children := fun x inside =>
  h x (Node.mem_elementsOf (List.mem_singleton_self _) (Node.mem_elements_of_children inside))

theorem here (h : CellsSecured [node]) (isCell : node.isNamed Word.cell) :
    ∃ child ∈ node.children, Secures Word.cell child :=
  h node (Node.mem_elementsOf (List.mem_singleton_self _)
    (Node.mem_elements_self (Node.isElement_of_isNamed isCell))) isCell

/-- Cells with a way down to a paragraph hold one. -/
theorem cellsHold (h : CellsSecured nodes) : CellsHold nodes := by
  intro cell inside isCell
  obtain ⟨child, member, secures⟩ := h cell inside isCell
  exact secures.holdParagraph.of_mem member

/-- The cells that a section repeats are secured. -/
theorem repeatable (h : CellsSecured [node]) : CellsSecured [Walk.repeatable node] := by
  intro x inside isCell
  rw [Node.elementsOf_singleton] at inside
  obtain ⟨cell, among, rfl⟩ := List.mem_map.mp (Node.elements_prune_subset _ node inside)
  rw [Node.isNamed, Node.name?_prune] at isCell
  rw [← Node.elementsOf_singleton] at among
  obtain ⟨child, member, secures⟩ := h cell among isCell
  have kept := secures.mem_repeatable member
  rw [← children_repeatable] at kept
  exact ⟨Walk.repeatable child, kept, secures.repeatable⟩

/-- So are those in a copy. -/
theorem copy (h : CellsSecured [node]) (index : Nat) : CellsSecured [node.copy index] := by
  intro x inside isCell
  rw [Node.elementsOf_singleton] at inside
  have among : x.bare ∈ node.elements.map Node.bare := by
    rw [← Node.elements_bare, ← Node.bare_copy index, Node.elements_bare]
    exact List.mem_map_of_mem inside
  obtain ⟨cell, isModel, same⟩ := List.mem_map.mp among
  rw [← Node.isNamed_bare, ← same, Node.isNamed_bare] at isCell
  rw [← Node.elementsOf_singleton] at isModel
  obtain ⟨child, member, secures⟩ := h cell isModel isCell
  have alike := congrArg Node.children same
  rw [Node.children_bare, Node.children_bare] at alike
  have isChild : child.bare ∈ cell.children.map Node.bare := List.mem_map_of_mem member
  obtain ⟨twin, isTwin, looks⟩ := List.mem_map.mp (alike ▸ isChild)
  exact ⟨twin, isTwin, secures.congr looks⟩

end CellsSecured

end TemplateFill.Walk
