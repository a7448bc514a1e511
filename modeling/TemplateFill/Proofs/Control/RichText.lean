import TemplateFill.Proofs.Control.Unmarking
import TemplateFill.Proofs.Walk.Placement
import TemplateFill.Proofs.Walk.Writing

/-!
# Rich texts that are written again

Blocks replace what was there, so that the same blocks put into the same place again change
nothing: the place is found again, and all of it is replaced.
-/

namespace TemplateFill.Control

open Xml

variable {node content cell : Node} {first later rendered : List Node} {blocks : List Block}
  {inParagraph : Bool}

/-! ### What blocks have become -/

/-- Blocks become runs inside a paragraph and paragraphs elsewhere. -/
theorem isNamed_of_render (made : Block.render inParagraph blocks = .ok rendered) :
    ∀ x ∈ rendered, x.isNamed (if inParagraph then Word.run else Word.paragraph) := by
  intro x member
  cases inParagraph with
  | true =>
    obtain ⟨runs, isRuns, made⟩ := bind_eq_ok made
    cases made
    obtain ⟨i, isAt⟩ := List.mem_iff_getElem?.mp member
    rw [List.getElem?_intersperse] at isAt
    split at isAt
    · obtain ⟨block, -, isText⟩ :=
        exists_left_of_mem (forall₂_of_mapM isRuns) (List.mem_of_getElem? isAt)
      unfold Block.textRun at isText
      split at isText
      · cases isText
        rfl
      · cases isText
    · split at isAt
      · cases isAt
        rfl
      · cases isAt
  | false =>
    obtain ⟨block, -, isMade⟩ := exists_left_of_mem (forall₂_of_mapM made) member
    obtain ⟨properties, -, isMade⟩ := bind_eq_ok isMade
    obtain ⟨run, -, isMade⟩ := bind_eq_ok isMade
    cases isMade
    rfl

/-- Nodes that can stand behind the properties of a cell. -/
def IsBehind (nodes : List Node) : Prop := ∀ x ∈ nodes, x.isNamed Word.cellProperties = false

theorem isBehind_of_render (made : Block.render inParagraph blocks = .ok rendered) :
    IsBehind rendered := by
  intro x member
  refine Node.isNamed_apart ?_ x (isNamed_of_render made x member)
  cases inParagraph <;> decide

/-! ### Replacing content -/

theorem name?_replaceContent (content : List Node) (node : Node) :
    (replaceContent content node).name? = node.name? := Node.name?_withChildren _ _

/-- Content that was replaced before is replaced as if it had not been. -/
theorem replaceContent_replaceContent (behind : IsBehind first) (node : Node) :
    replaceContent later (replaceContent first node) = replaceContent later node := by
  cases node with
  | element own lineage traits children =>
    have noneBehind : first.filter (·.isNamed Word.cellProperties) = [] := by
      refine List.filter_eq_nil_iff.mpr fun x member => ?_
      rw [behind x member]
      exact Bool.false_ne_true
    have properties : (children.filter (·.isNamed Word.cellProperties) ++ first).filter
        (·.isNamed Word.cellProperties) = children.filter (·.isNamed Word.cellProperties) := by
      rw [List.filter_append, noneBehind, List.filter_filter]
      simp only [Bool.and_self, List.append_nil]
    simp only [replaceContent, Node.childrenNamed, Node.withChildren, Node.children, properties]
  | aside content tail => rfl

/-- A cell with a paragraph is one whose content was replaced, by one more node at most. -/
theorem exists_ensureParagraph (behind : IsBehind first) (cell : Node) :
    ∃ more, IsBehind more ∧
      ensureParagraph (replaceContent first cell) = replaceContent more cell := by
  rw [ensureParagraph]
  split
  · exact ⟨first, behind, rfl⟩
  · refine ⟨first ++ [Word.makeParagraph []], fun x member => ?_, ?_⟩
    · rcases List.mem_append.mp member with old | new
      · exact behind x old
      · rw [List.mem_singleton.mp new]
        rfl
    · cases cell with
      | element own lineage traits children =>
        simp only [replaceContent, Node.append, Node.withChildren, Node.children,
          List.append_assoc]
      | aside content tail => rfl

/-- A cell that was filled is filled with the same again. -/
theorem fillCell_fillCell (behind : IsBehind rendered) (cell : Node) :
    ensureParagraph (replaceContent rendered (ensureParagraph (replaceContent rendered cell))) =
      ensureParagraph (replaceContent rendered cell) := by
  obtain ⟨more, alsoBehind, isFilled⟩ := exists_ensureParagraph behind cell
  rw [isFilled, replaceContent_replaceContent alsoBehind, ← isFilled]

theorem isNamed_fillCell (behind : IsBehind rendered) (cell : Node) (name : Name) :
    (ensureParagraph (replaceContent rendered cell)).isNamed name = cell.isNamed name := by
  obtain ⟨more, -, isFilled⟩ := exists_ensureParagraph behind cell
  rw [isFilled, Node.isNamed, name?_replaceContent, Node.isNamed]

/-- Rendering makes no cells. -/
theorem not_isNamed_cell_of_render (made : Block.render inParagraph blocks = .ok rendered) :
    ∀ x ∈ Node.elementsOf rendered, ¬ x.isNamed Word.cell := by
  intro x inside
  obtain ⟨node, member, within⟩ := Node.mem_elementsOf_iff.mp inside
  have isMade := (Walk.takes_render made ⟨none, inParagraph⟩ rfl node member).isMadeOf
  have never : Word.cell ∉ Walk.textNames inParagraph := by
    cases inParagraph <;> decide
  exact isMade.none_named never x within

/-- What blocks have become is put into the same place again. -/
theorem placeRendered_placeRendered (made : Block.render inParagraph blocks = .ok rendered)
    (isArea : content.isNamed Word.controlContent) :
    placeRendered inParagraph rendered (placeRendered inParagraph rendered content) =
      placeRendered inParagraph rendered content := by
  have behind := isBehind_of_render made
  have isElement := Node.isElement_of_isNamed isArea
  cases inParagraph with
  | true => exact replaceContent_replaceContent behind content
  | false =>
    simp only [placeRendered, Bool.false_eq_true, if_false]
    cases cells : Node.updateFirstOf? Word.cell
        (fun cell => ensureParagraph (replaceContent rendered cell)) content.children with
    | some children =>
      have again := Node.updateFirstOf?_again
        (fun x isCell => by rwa [isNamed_fillCell behind])
        (fun x _ => fillCell_fillCell behind x) content.children cells
      simp only [Node.children_withChildren isElement, again, Node.withChildren_withChildren]
    | none =>
      -- where there was no cell there is none now
      have none := Node.tally_eq_zero_iff.mp ((Node.updateFirstOf?_eq_none_iff _ _).mp cells)
      have stillNone : Node.updateFirstOf? Word.cell
          (fun cell => ensureParagraph (replaceContent rendered cell))
          (replaceContent rendered content).children = .none := by
        rw [Node.updateFirstOf?_eq_none_iff, Node.tally_eq_zero_iff, replaceContent,
          Node.children_withChildren isElement]
        intro x inside
        obtain ⟨node, member, within⟩ := Node.mem_elementsOf_iff.mp inside
        rcases List.mem_append.mp member with old | new
        · exact none x (Node.mem_elementsOf (List.mem_filter.mp old).1 within)
        · exact not_isNamed_cell_of_render made x (Node.mem_elementsOf new within)
      simp only [stillNone, replaceContent_replaceContent behind]

/-! ### The control -/

theorem isNamed_placeRendered (isArea : content.isNamed Word.controlContent) :
    (placeRendered inParagraph rendered content).isNamed Word.controlContent := by
  rwa [Node.isNamed, Walk.name?_placeRendered]

theorem content?_fillRichText (isContent : content? node = some content) :
    content? (fillRichText inParagraph rendered content node) =
      some (placeRendered inParagraph rendered content) := by
  rw [fillRichText, content?_unmark]
  exact Node.child?_replaceChild isContent (isNamed_placeRendered (List.find?_some isContent))

theorem read_fillRichText (bare : HasBareMarks node) (isContent : content? node = some content) :
    read (fillRichText inParagraph rendered content node) = read node :=
  read_unmark_replaceContent bare (isNamed_placeRendered (List.find?_some isContent))

/-- Rich text brings no mark of a plain text control. -/
theorem isPlainTextOnly_fillRichText {place : Walk.Place} (isControl : isControl node)
    (made : Block.render place.inParagraph blocks = .ok rendered)
    (isContent : content? node = some content) (other : isPlainTextOnly node = false) :
    isPlainTextOnly (fillRichText place.inParagraph rendered content node) = false := by
  have counted (node : Node) :
      isPlainTextOnly node = decide (0 < Node.tally Word.plainTextMark [node]) := by
    rw [isPlainTextOnly, Node.tally, Node.elementsOf_singleton,
      Bool.eq_iff_iff, decide_eq_true_eq, List.countP_pos_iff, List.any_eq_true]
  have never : ∀ inParagraph, Word.plainTextMark ∉ Walk.textNames inParagraph := by decide
  have fewer := (Walk.pared_fillRichText isControl isContent made).tally_le (never _)
  rw [counted, decide_eq_false_iff_not] at other ⊢
  omega

/-- The same blocks written into a control again change nothing. -/
theorem fillRichText_fillRichText (made : Block.render inParagraph blocks = .ok rendered)
    (isContent : content? node = some content) :
    fillRichText inParagraph rendered (placeRendered inParagraph rendered content)
        (fillRichText inParagraph rendered content node) =
      fillRichText inParagraph rendered content node := by
  have isArea : content.isNamed Word.controlContent := List.find?_some isContent
  have left : content? (fillRichText inParagraph rendered content node) =
      some (placeRendered inParagraph rendered content) := content?_fillRichText isContent
  have whole : fillRichText inParagraph rendered (placeRendered inParagraph rendered content)
      (fillRichText inParagraph rendered content node) =
      unmark (fillRichText inParagraph rendered content node) := by
    rw [fillRichText, placeRendered_placeRendered made isArea]
    exact congrArg unmark (Node.replaceChild_self left)
  rw [whole, fillRichText, unmark_unmark]

end TemplateFill.Control
