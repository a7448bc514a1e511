import TemplateFill.Proofs.Walk.Identity

/-!
# Elements that hold no control

If no element of a name holds a control in a template, none does in what a walk leaves: controls
come from controls, and every element keeps its place in the elements around it.
-/

namespace TemplateFill.Walk

open Xml

/-- There is no control among or below some nodes. -/
def ControlFree (nodes : List Node) : Prop := ∀ x ∈ Node.elementsOf nodes, ¬ Control.isControl x

/-- No element of a name holds a control. -/
def Excludes (name : Name) (nodes : List Node) : Prop :=
  ∀ x ∈ Node.elementsOf nodes, x.isNamed name → ControlFree x.children

instance (nodes : List Node) : Decidable (ControlFree nodes) :=
  inferInstanceAs (Decidable (∀ x ∈ Node.elementsOf nodes, ¬ Control.isControl x))

instance (name : Name) (nodes : List Node) : Decidable (Excludes name nodes) :=
  inferInstanceAs (Decidable (∀ x ∈ Node.elementsOf nodes, x.isNamed name → ControlFree x.children))

variable {name own : Name} {nodes left rest others inside : List Node} {node x : Node}
  {lineage : Lineage} {traits : Traits}

/-- Controls only come from controls. -/
theorem ControlFree.of_source (free : ControlFree nodes)
    (source : ∀ tag ∈ tags left, ∃ model ∈ tags nodes, model.1 = tag.1) : ControlFree left := by
  intro x inside isControl
  obtain ⟨model, among, same⟩ := source _ (mem_tags inside (isTag_of_isControl isControl))
  obtain ⟨y, isIn, rfl⟩ := List.mem_map.mp (List.mem_filter.mp among).1
  refine free y isIn (Node.isNamed_iff.mpr ?_)
  exact same.trans (Node.isNamed_iff.mp isControl)

theorem Descends.names {old new : List Tag} (h : Descends old new) :
    ∀ tag ∈ new, ∃ model ∈ old, model.1 = tag.1 := by
  intro tag member
  obtain ⟨model, among, same, -⟩ := h.source tag member
  exact ⟨model, among, same⟩

namespace Excludes

theorem nil : Excludes name [] := fun _ inside => nomatch inside

theorem append (first : Excludes name nodes) (onward : Excludes name rest) :
    Excludes name (nodes ++ rest) := by
  intro x inside
  rw [Node.elementsOf_append] at inside
  rcases List.mem_append.mp inside with here | later
  · exact first x here
  · exact onward x later

theorem subset (h : Excludes name nodes) (fewer : left ⊆ nodes) : Excludes name left := by
  intro x inside
  obtain ⟨node, among, within⟩ := Node.mem_elementsOf_iff.mp inside
  exact h x (Node.mem_elementsOf (fewer among) within)

theorem mem (h : Excludes name nodes) (member : node ∈ nodes) : Excludes name [node] :=
  h.subset (List.cons_subset.mpr ⟨member, List.nil_subset _⟩)

theorem head (h : Excludes name (node :: rest)) : Excludes name [node] := h.mem List.mem_cons_self

theorem tail (h : Excludes name (node :: rest)) : Excludes name rest :=
  h.subset (List.subset_cons_self _ _)

theorem cons (first : Excludes name [node]) (onward : Excludes name rest) :
    Excludes name (node :: rest) := append first onward

theorem content (h : Excludes name [node]) : Excludes name node.children := by
  intro x inside
  exact h x (Node.mem_elementsOf (List.mem_singleton_self _) (Node.mem_elements_of_children inside))

theorem free (h : Excludes name [node]) (named : node.isNamed name) : ControlFree node.children :=
  h node (Node.mem_elementsOf (List.mem_singleton_self _)
    (Node.mem_elements_self (Node.isElement_of_isNamed named))) named

theorem element (here : own = name → ControlFree inside) (below : Excludes name inside) :
    Excludes name [.element own lineage traits inside] := by
  intro x member named
  rw [Node.elementsOf_singleton] at member
  rcases Node.mem_elements_element.mp member with rfl | within
  · exact here (Option.some.inj (Node.isNamed_iff.mp named))
  · exact below x within named

theorem leaf (isLeaf : node.name? = none) : Excludes name [node] := by
  intro x inside
  rw [Node.elementsOf, Node.elementsOf, Node.elements_of_leaf isLeaf] at inside
  cases inside

/-- New content of an element that comes from its old one. -/
theorem withChildren (h : Excludes name [node])
    (source : ∀ tag ∈ tags left, ∃ model ∈ tags node.children, model.1 = tag.1)
    (below : Excludes name left) : Excludes name [node.withChildren left] := by
  cases node with
  | element own lineage traits children =>
    refine element (fun same => ?_) below
    exact (h.free (Node.isNamed_iff.mpr (congrArg some same))).of_source source
  | aside content tail => exact h

end Excludes

theorem Pared.excludes {written : List Name} {place : Place} (pared : Pared written place nodes left)
    (never : Word.control ∉ written) (unwritten : name ∉ written) :
    Excludes name nodes → Excludes name left := by
  induction pared with
  | nil => exact id
  | drop _ _ ih => exact fun h => ih h.tail
  | keep _ below _ ihBelow ih =>
    intro h
    have inside := ihBelow h.head.content
    refine .cons (.element (fun same => ?_) inside) (ih h.tail)
    have free := h.head.free (Node.isNamed_iff.mpr (congrArg some same))
    exact free.of_source (Pared.descends below never).names
  | leaf isLeaf _ ih => exact fun h => .cons (.leaf isLeaf) (ih h.tail)
  | add added _ ih =>
    refine fun h => .cons (fun x inside named => ?_) (ih h)
    rw [Node.elementsOf_singleton] at inside
    exact absurd named (added.isMadeOf.none_named unwritten x inside)

theorem Excludes.copy (index : Nat) (node : Node) :
    Excludes name [node] → Excludes name [node.copy index] := by
  induction node using Node.induction with
  | element own lineage traits children ih =>
    intro h
    have isCopy : (Node.element own lineage traits children).copy index =
        .element own (if lineage.isEmpty then [] else lineage ++ [index]) traits
          (children.map (Node.copy index)) := by
      rw [Node.copy, Node.mapElements, Node.mapAllElements_eq]
      rfl
    rw [isCopy]
    refine .element (fun same => ?_) fun x inside => ?_
    · have free := h.free (Node.isNamed_iff.mpr (congrArg some same))
      refine free.of_source fun tag member => ?_
      rw [tags_copyAll index fun node _ => tags_copy index node] at member
      obtain ⟨model, among, rfl⟩ := List.mem_map.mp member
      exact ⟨model, among, rfl⟩
    · obtain ⟨_, isCopied, within⟩ := Node.mem_elementsOf_iff.mp inside
      obtain ⟨child, among, rfl⟩ := List.mem_map.mp isCopied
      exact ih child among (h.content.mem among) x
        (Node.mem_elementsOf (List.mem_singleton_self _) within)
  | aside content tail => exact fun h => h

/-! ### The walk -/

theorem excludes_withItems {tag : String} {item : Node} {items : List Node}
    (isItem : sectionItem tag node = .ok item) (copies : Descends (tags [item]) (tags items))
    (h : Excludes name [node]) (below : Excludes name [item] → Excludes name items) :
    Excludes name [withItems items node] := by
  obtain ⟨content, child, isContent, member, -, rfl⟩ := sectionItem_eq_ok isItem
  obtain ⟨area, isArea, inside⟩ := descends_content isItem copies
  obtain rfl : content = area := Option.some.inj (isContent.symm.trans isArea)
  have content := h.content.mem (List.mem_of_find?_eq_some isContent)
  have pruned : Pared [] .outside [child] [child.prune (·.isNamed Word.identifier)] :=
    .prune _ child _
  have copied := below (pruned.excludes (by simp) (by simp) (content.content.mem member))
  have filled := content.withChildren inside.names copied
  unfold withItems
  rw [isContent]
  refine h.withChildren (Descends.names (.replaceFirst isContent (.withChildren _ inside))) ?_
  exact (filled.cons h.content).subset (Node.replaceFirst_subset _ _ _)

mutual

theorem Settles.excludes {options : Options} {place : Place} {scope : Datum}
    {lists kept : ListStore} {node : Node} {account : Account} {left : List Node}
    (unwritten : ∀ inParagraph, name ∉ textNames inParagraph) (isControl : Control.isControl node)
    (h : Excludes name [node]) :
    Settles options place scope lists node account left kept → Excludes name left
  | .refused _ => h
  | .broken written => (pared_written isControl written).excludes
      (by cases place.inParagraph <;> decide) (unwritten _) h
  | .filled written => (pared_written isControl written).excludes
      (by cases place.inParagraph <;> decide) (unwritten _) h
  | .removed _ _ => by
    split
    · exact .element (fun _ _ inside => nomatch inside) .nil
    · exact .nil
  | .shown _ below => h.withChildren below.descends.names (below.excludes unwritten h.content)
  | .repeated written below => by
    have isItem := course_holds written
    have isControlItem := (isControl_of_sectionItem isItem).1
    exact excludes_withItems isItem (below.isCopied isControlItem).descends h
      fun item => below.excludes unwritten isControlItem item

/-- What holds no control in a template holds none in what is left of it. -/
theorem SettlesAll.excludes {options : Options} {place : Place} {scope : Datum}
    {lists kept : ListStore} {nodes left : List Node} {accounts : List Account}
    (unwritten : ∀ inParagraph, name ∉ textNames inParagraph) (h : Excludes name nodes) :
    SettlesAll options place scope lists nodes accounts left kept → Excludes name left
  | .nil => .nil
  | .control isControl first onward =>
    .append (first.excludes unwritten isControl h.head) (onward.excludes unwritten h.tail)
  | .element _ first onward => by
    have inside := h.head.withChildren first.descends.names (first.excludes unwritten h.head.content)
    exact inside.cons (onward.excludes unwritten h.tail)
  | .leaf isLeaf onward => .cons (.leaf isLeaf) (onward.excludes unwritten h.tail)

theorem SettlesItems.excludes {options : Options} {place : Place} {tag : String} {item : Node}
    {index : Nat} {lists kept : ListStore} {values : List Datum} {entries : List Entry}
    {copies : List Node} {fault : Option Fault}
    (unwritten : ∀ inParagraph, name ∉ textNames inParagraph) (isControl : Control.isControl item)
    (h : Excludes name [item]) :
    SettlesItems options place tag item index lists values entries copies fault kept →
      Excludes name copies
  | .done => .nil
  | .copied first onward => by
    have copied := h.copy index
    have inside := copied.withChildren first.descends.names (first.excludes unwritten copied.content)
    exact inside.cons (onward.excludes unwritten isControl h)
  | .rejected _ _ onward => onward.excludes unwritten isControl h
  | .stopped _ _ => .nil

end

/-- No control gets into an element that held none. -/
theorem populate_excludes (unwritten : ∀ inParagraph, name ∉ textNames inParagraph)
    (options : Options) (root : Node) (scope : Datum) (lists : ListStore)
    (h : Excludes name root.children) :
    Excludes name (populate options root scope (.start lists)).1.children := by
  obtain ⟨accounts, only, -⟩ := settledOn_populate options root scope lists
  have settled := (only _ _ _).mpr ⟨rfl, rfl, rfl⟩
  cases root with
  | element own lineage traits children => exact settled.excludes unwritten h
  | aside content tail => exact .nil

end TemplateFill.Walk
