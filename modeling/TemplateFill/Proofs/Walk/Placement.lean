import TemplateFill.Proofs.Traversal
import TemplateFill.Proofs.Walk.Account
import TemplateFill.Proofs.Xml.Elements

/-!
# Where list paragraphs stand

The list paragraphs that an account tells about are elements of what the walk leaves. Nothing
that happens to a control after it was filled, and nothing that happens around it, takes them
away again.
-/

namespace TemplateFill.Walk

open Xml

/-! ### In a control -/

section Control

variable {content node x : Node} {rendered : List Node}

theorem mem_children_replaceContent (isElement : node.name?.isSome)
    (inside : x ∈ Node.elementsOf rendered) :
    x ∈ Node.elementsOf (Control.replaceContent rendered node).children := by
  rw [Control.replaceContent, Node.children_withChildren isElement, Node.elementsOf_append]
  exact List.mem_append_right _ inside

theorem mem_elements_ensureParagraph (inside : x ∈ Node.elementsOf node.children) :
    x ∈ (Control.ensureParagraph node).elements := by
  unfold Control.ensureParagraph
  split
  · exact Node.mem_elements_of_children inside
  · refine Node.mem_elements_withChildren (Node.isElement_of_children inside) ?_
    rw [Node.elementsOf_append]
    exact List.mem_append_left _ inside

/-- What was rendered stands in the content area, in its first cell or right below it. -/
theorem mem_elements_placeRendered (inParagraph : Bool) (isElement : content.name?.isSome)
    (inside : x ∈ Node.elementsOf rendered) :
    x ∈ (Control.placeRendered inParagraph rendered content).elements := by
  have replaced := Node.mem_elements_of_children (mem_children_replaceContent isElement inside)
  unfold Control.placeRendered
  split
  · exact replaced
  · split
    · rename_i children isUpdated
      refine Node.mem_elements_withChildren isElement
        (Node.mem_elementsOf_of_updateFirstOf? (fun cell isCell => ?_) _ isUpdated)
      exact mem_elements_ensureParagraph (mem_children_replaceContent isCell inside)
    · exact replaced

theorem name?_placeRendered (inParagraph : Bool) :
    (Control.placeRendered inParagraph rendered content).name? = content.name? := by
  unfold Control.placeRendered Control.replaceContent
  split
  · simp
  · split <;> simp

/-- A control that was filled holds what was rendered. -/
theorem mem_elements_fillRichText (inParagraph : Bool)
    (isContent : Control.content? node = some content)
    (inside : x ∈ Node.elementsOf rendered) :
    x ∈ (Control.fillRichText inParagraph rendered content node).elements := by
  have named : content.isNamed Word.controlContent := List.find?_some isContent
  have placed := mem_elements_placeRendered inParagraph (Node.isElement_of_isNamed named) inside
  have isElement : node.name?.isSome :=
    Node.isElement_of_children (Node.mem_elementsOf (List.mem_of_find?_eq_some isContent)
      (Node.mem_elements_self (Node.isElement_of_isNamed named)))
  unfold Control.fillRichText Control.unmark
  split
  · exact Node.mem_elements_replaceChild isContent placed
  · refine Node.mem_elements_withChildren (by simpa [Node.replaceChild] using isElement)
      (Node.mem_elementsOf (Node.mem_replaceFirst_of_not ?_ ?_) placed)
    · rw [Node.replaceChild, Node.children_withChildren isElement]
      exact Node.mem_replaceFirst (List.mem_of_find?_eq_some isContent) named
    · rw [Node.isNamed, name?_placeRendered, Node.isNamed_iff.mp named]
      rfl

end Control

theorem mem_elements_withItems {content node x : Node} {items : List Node}
    (isContent : Control.content? node = some content) (inside : x ∈ Node.elementsOf items) :
    x ∈ (withItems items node).elements := by
  have named : content.isNamed Word.controlContent := List.find?_some isContent
  unfold withItems
  rw [isContent]
  exact Node.mem_elements_replaceChild isContent
    (Node.mem_elements_withChildren (Node.isElement_of_isNamed named) inside)

/-! ### List paragraphs -/

theorem isElement_of_toParagraph {block : Block} {paragraph : Node}
    (made : block.toParagraph = .ok paragraph) : paragraph.name?.isSome := by
  obtain ⟨properties, -, made⟩ := bind_eq_ok made
  obtain ⟨run, -, made⟩ := bind_eq_ok made
  cases made
  rfl

/-- Outside of paragraphs only elements are rendered. -/
theorem isElement_of_rendering {value : Datum} {lists : ListStore} {rendered : List Node}
    (made : (rendering false value lists).1 = .ok rendered) :
    ∀ node ∈ rendered, node.name?.isSome := by
  unfold rendering at made
  split at made
  · cases made
  · split at made
    · cases made
    · intro node member
      obtain ⟨block, -, isParagraph⟩ := exists_left_of_mem (forall₂_of_mapM made) member
      exact isElement_of_toParagraph isParagraph

theorem mem_of_mem_itemsMade {inParagraph : Bool} {value : Datum} {rendered : List Node}
    {item : ListItem} (member : item ∈ itemsMade inParagraph value rendered) :
    inParagraph = false ∧ item.paragraph ∈ rendered := by
  unfold itemsMade at member
  split at member
  · cases member
  · rename_i outside
    split at member
    · cases member
    · obtain ⟨⟨piece, paragraph⟩, among, isItem⟩ := List.mem_filterMap.mp member
      obtain ⟨enclosure, -, rfl⟩ := Option.map_eq_some_iff.mp isItem
      exact ⟨by simpa using outside, (List.of_mem_zip among).2⟩

/-- The list paragraphs that a control took itself. -/
def Account.items : Account → List ListItem
  | .filled _ items => items
  | _ => []

/-- The list paragraphs that several controls took, and the controls reached below them. -/
def itemsOf (accounts : List Account) : List ListItem := (reachedOf accounts).flatMap Account.items

theorem itemsOf_append (first second : List Account) :
    itemsOf (first ++ second) = itemsOf first ++ itemsOf second := by
  rw [itemsOf, reachedOf_append, List.flatMap_append]
  rfl

def StandIn (items : List ListItem) (nodes : List Node) : Prop :=
  ∀ item ∈ items, item.paragraph ∈ Node.elementsOf nodes

theorem StandIn.append {items others : List ListItem} {nodes rest : List Node}
    (h : StandIn items nodes) (onward : StandIn others rest) :
    StandIn (items ++ others) (nodes ++ rest) := by
  intro item member
  rw [Node.elementsOf_append]
  rcases List.mem_append.mp member with earlier | later
  · exact List.mem_append_left _ (h item earlier)
  · exact List.mem_append_right _ (onward item later)

theorem StandIn.cons {items others : List ListItem} {node : Node} {rest : List Node}
    (h : ∀ item ∈ items, item.paragraph ∈ node.elements) (onward : StandIn others rest) :
    StandIn (items ++ others) (node :: rest) :=
  StandIn.append (fun item member => Node.mem_elementsOf (List.mem_singleton_self node)
    (h item member)) onward

theorem StandIn.nil (nodes : List Node) : StandIn [] nodes := List.forall_mem_nil _

/-- What a section repeats is a control in its content area, without the ids. -/
theorem sectionItem_eq_ok {tag : String} {node item : Node}
    (isItem : sectionItem tag node = .ok item) :
    ∃ content child, Control.content? node = some content ∧ child ∈ content.children ∧
      Control.isControl child ∧ item = child.prune (·.isNamed Word.identifier) := by
  unfold sectionItem at isItem
  split at isItem
  · cases isItem
  · rename_i content isContent
    split at isItem
    · cases isItem
    · rename_i child isChild
      split at isItem
      · rename_i isControl
        cases isItem
        exact ⟨content, child, isContent, List.mem_of_head? isChild, isControl, rfl⟩
      · cases isItem

/-- What a section repeats is a control, and it has a content area to repeat it in. -/
theorem isControl_of_sectionItem {tag : String} {node item : Node}
    (isItem : sectionItem tag node = .ok item) :
    Control.isControl item ∧ ∃ content, Control.content? node = some content := by
  obtain ⟨content, child, isContent, -, isControl, rfl⟩ := sectionItem_eq_ok isItem
  refine ⟨Node.isNamed_iff.mpr ?_, content, isContent⟩
  rw [Node.name?_prune]
  exact Node.isNamed_iff.mp isControl

mutual

theorem Settles.standIn {options : Options} {place : Place} {scope : Datum}
    {lists kept : ListStore} {node : Node} {account : Account} {left : List Node}
    (isControl : Control.isControl node) :
    Settles options place scope lists node account left kept →
      StandIn (account.reached.flatMap Account.items) left
  | .refused _ => .nil _
  | .broken _ => .nil _
  | .filled h => by
    intro item member
    have isItem : item ∈ _ ++ [] := member
    rw [List.append_nil] at isItem
    rcases (course_holds h).2 with ⟨-, rfl⟩ | ⟨value, content, isContent, -, result⟩
    · cases isItem
    · split at result
      · rw [result.2] at isItem
        cases isItem
      · rename_i rendered made
        obtain ⟨rfl, -, rfl⟩ := result
        obtain ⟨outside, isRendered⟩ := mem_of_mem_itemsMade isItem
        rw [outside] at made
        have isElement := isElement_of_rendering made item.paragraph isRendered
        exact Node.mem_elementsOf (List.mem_singleton_self _)
          (mem_elements_fillRichText _ isContent
            (Node.mem_elementsOf isRendered (Node.mem_elements_self isElement)))
  | .removed _ _ => .nil _
  | .shown _ below => by
    intro item member
    have inside := below.standIn item member
    exact Node.mem_elementsOf (List.mem_singleton_self _)
      (Node.mem_elements_withChildren (Node.isElement_of_isNamed isControl) inside)
  | .repeated h below => by
    intro item member
    obtain ⟨isControlItem, content, isContent⟩ := isControl_of_sectionItem (course_holds h)
    have inside := below.standIn isControlItem item member
    exact Node.mem_elementsOf (List.mem_singleton_self _) (mem_elements_withItems isContent inside)

/-- The list paragraphs of an account stand in what is left. -/
theorem SettlesAll.standIn {options : Options} {place : Place} {scope : Datum}
    {lists kept : ListStore} {nodes left : List Node} {accounts : List Account} :
    SettlesAll options place scope lists nodes accounts left kept →
      StandIn (itemsOf accounts) left
  | .nil => .nil _
  | .control isControl first onward => by
    have here := first.standIn isControl
    have others := onward.standIn
    rw [itemsOf, reachedOf, List.flatMap_append]
    exact here.append others
  | .element _ first onward => by
    have inside := first.standIn
    have others := onward.standIn
    rw [itemsOf_append]
    exact .cons (fun item member => Node.mem_elements_of_children (inside item member)) others
  | .leaf _ onward => by
    have others := onward.standIn
    exact .cons (List.forall_mem_nil _) others

theorem SettlesItems.standIn {options : Options} {place : Place} {tag : String} {item : Node}
    {index : Nat} {lists kept : ListStore} {values : List Datum} {entries : List Entry}
    {copies : List Node} {fault : Option Fault} (isControl : Control.isControl item) :
    SettlesItems options place tag item index lists values entries copies fault kept →
      StandIn ((entriesReached entries).flatMap Account.items) copies
  | .done => .nil _
  | .copied first onward => by
    have inside := first.standIn
    have others := onward.standIn isControl
    rw [entriesReached, List.flatMap_append]
    have isElement : (item.copy index).name?.isSome := by
      rw [Node.name?_copy]
      exact Node.isElement_of_isNamed isControl
    exact .cons (fun other member => Node.mem_elements_withChildren isElement (inside other member))
      others
  | .rejected _ _ onward => by
    have others := onward.standIn isControl
    exact others
  | .stopped _ _ => .nil _

end

end TemplateFill.Walk
