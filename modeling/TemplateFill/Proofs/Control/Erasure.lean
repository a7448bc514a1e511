import TemplateFill.Proofs.Control.Unmarking
import TemplateFill.Proofs.Walk.Writing
import TemplateFill.Proofs.Xml.Erasure

/-!
# Controls without their lineages

What a control is, and what a text makes of it, does not depend on lineages. The writers are taken
apart into the operations that they are made of, each of which commutes with forgetting lineages;
what they put in has none.
-/

namespace TemplateFill.Control

open Xml Walk

variable {node : Node} {written : List Name}

/-! ### Reading -/

@[simp] theorem isControl_bare (node : Node) : isControl node.bare = isControl node :=
  Node.isNamed_bare _ _

theorem properties?_bare (node : Node) : properties? node.bare = (properties? node).map Node.bare :=
  Node.child?_bare _ _

theorem content?_bare (node : Node) : content? node.bare = (content? node).map Node.bare :=
  Node.child?_bare _ _

theorem isMarked_bare (mark : Name) (properties : Node) :
    isMarked mark properties.bare = isMarked mark properties := by
  rw [isMarked, Node.children_bare, Node.elementsOf_bare, Node.any_bare (Node.isNamed_bare mark)]
  rfl

theorem foreignTypes_bare (properties : Node) :
    foreignTypes properties.bare = foreignTypes properties := by
  rw [foreignTypes, Node.elements_bare, List.filterMap_map]
  have same : Node.name? ∘ Node.bare = Node.name? := funext Node.name?_bare
  rw [same]
  rfl

theorem kindOfTagged_bare (tag : String) (properties : Node) :
    kindOfTagged tag properties.bare = kindOfTagged tag properties := by
  rw [kindOfTagged, foreignTypes_bare, isMarked_bare, isMarked_bare]
  rfl

theorem tagNode?_bare (properties : Node) :
    tagNode? properties.bare = (tagNode? properties).map Node.bare := by
  rw [tagNode?, Node.children_bare, Node.elementsOf_bare, Node.find?_bare (Node.isNamed_bare _)]
  rfl

/-- Lineages are no part of what is known about a control. -/
theorem read_bare (node : Node) : read node.bare = read node := by
  rw [read, read, properties?_bare]
  cases properties? node with
  | none => rfl
  | some properties =>
    simp only [Option.map_some, Option.bind_some, tagNode?_bare]
    cases tagNode? properties with
    | none => rfl
    | some tagNode => simp only [Option.map_some, Node.attribute?_bare, kindOfTagged_bare]

/-! ### Nodes that are written -/

/-- What is written has no lineages to forget. -/
theorem bare_of_isMadeOf (node : Node) : IsMadeOf written node → node.bare = node := by
  induction node using Node.induction with
  | element name lineage traits children ih =>
    intro made
    obtain ⟨⟨rfl, -⟩, below⟩ := isMadeOf_element.mp made
    have same : children.map Node.bare = children :=
      (List.map_congr_left fun child member => ih child member (below child member)).trans
        (List.map_id _)
    rw [Node.bare_element, same]
  | aside content tail => exact fun _ => rfl

theorem map_bare_of_isMadeOf {nodes : List Node} (made : ∀ node ∈ nodes, IsMadeOf written node) :
    nodes.map Node.bare = nodes :=
  (List.map_congr_left fun node member => bare_of_isMadeOf node (made node member)).trans
    (List.map_id _)

theorem bare_furtherLines (lines : List String) :
    (furtherLines lines).1.map Node.bare = (furtherLines lines).1 :=
  map_bare_of_isMadeOf (isMadeOf_furtherLines lines)

/-! ### Plain text -/

theorem isPiece_bare (node : Node) : isPiece node.bare = isPiece node := by
  simp only [isPiece, Node.isNamed_bare]

theorem isPlaceholderStyle_bare (node : Node) :
    isPlaceholderStyle node.bare = isPlaceholderStyle node := by
  simp only [isPlaceholderStyle, Node.isNamed_bare, Node.attribute?_bare]

theorem writeInto_bare (piece : Node) (first : String) (rest : List String) :
    writeInto piece.bare first rest =
      ((writeInto piece first rest).1.map Node.bare, (writeInto piece first rest).2) := by
  rw [writeInto, writeInto]
  split
  · simp only [List.map_cons, bare_furtherLines, Node.bare_setAttribute, Node.bare_setText]
  · simp only [List.map_cons, List.map_nil, Node.bare_setText]

theorem writeContent_bare (first : String) (rest : List String) (content : List Node) :
    writeContent first rest (content.map Node.bare) =
      ((writeContent first rest content).1.map Node.bare, (writeContent first rest content).2) := by
  have others (nodes : List Node) : (nodes.map Node.bare).filter (!isPiece ·) =
      (nodes.filter (!isPiece ·)).map Node.bare :=
    Node.filter_bare (fun x => by rw [isPiece_bare]) nodes
  have same : (fun x : Node => !x.bare.isNamed Word.runText) = fun x => !x.isNamed Word.runText :=
    funext fun x => by rw [Node.isNamed_bare]
  have before : (content.map Node.bare).takeWhile (fun x => !x.isNamed Word.runText) =
      (content.takeWhile fun x => !x.isNamed Word.runText).map Node.bare := by
    rw [List.takeWhile_map]
    exact congrArg (fun q => (content.takeWhile q).map Node.bare) same
  have behind : (content.map Node.bare).dropWhile (fun x => !x.isNamed Word.runText) =
      (content.dropWhile fun x => !x.isNamed Word.runText).map Node.bare := by
    rw [List.dropWhile_map]
    exact congrArg (fun q => (content.dropWhile q).map Node.bare) same
  have text : (Word.makeText first).bare = Word.makeText first :=
    bare_of_isMadeOf _ (isMadeOf_makeText first)
  rw [writeContent, writeContent, List.span_eq_takeWhile_dropWhile,
    List.span_eq_takeWhile_dropWhile, before, behind]
  cases content.dropWhile fun x => !x.isNamed Word.runText with
  | cons piece after =>
    simp only [List.map_cons, writeInto_bare, others, List.map_append]
  | nil =>
    simp only [List.map_nil, others]
    split
    · simp only [List.map_append, List.map_cons, text, bare_furtherLines]
    · rfl

theorem writeRun_bare (lines : List String) (run : Node) :
    writeRun lines run.bare = ((writeRun lines run).1.bare, (writeRun lines run).2) := by
  cases lines with
  | nil => rfl
  | cons first rest =>
    simp only [writeRun, Node.children_bare, writeContent_bare, Node.bare_withChildren]

theorem bare_withRun (area run : Node) : (withRun area run).bare = withRun area.bare run.bare :=
  Node.bare_mapNamed (f := fun _ => run) (fun _ => rfl) area

theorem bare_withNewRun (area run : Node) :
    (withNewRun area run).bare = withNewRun area.bare run.bare :=
  Node.bare_mapNamed (fun x => Node.bare_append x run) area

theorem writeArea_bare (lines : List String) (content : Node) :
    writeArea lines content.bare =
      (writeArea lines content).map fun area => (area.1.bare, area.2) := by
  have written : (writeRun lines (Word.makeRun [])).1.bare = (writeRun lines (Word.makeRun [])).1 :=
    (congrArg Prod.fst (writeRun_bare lines (Word.makeRun []))).symm
  rw [writeArea, writeArea]
  simp only [Node.keepFirst_bare, Node.named_bare]
  cases (content.keepFirst Word.run false).1.named Word.run with
  | cons run rest => simp only [List.map_cons, writeRun_bare, Option.map_some, bare_withRun]
  | nil =>
    simp only [List.map_nil, List.isEmpty_map]
    split
    · rfl
    · simp only [Option.map_some, bare_withNewRun, written]

theorem bare_unmark (node : Node) : (unmark node).bare = unmark node.bare := by
  rw [unmark, unmark, properties?_bare]
  cases properties? node with
  | none => rfl
  | some properties =>
    rw [Option.map_some]
    simp only
    rw [Node.bare_replaceChild, Node.bare_removeChildren (Node.isNamed_bare _)]

theorem finishPlainText_bare (node content : Node) (fault : Option Fault) :
    finishPlainText node.bare content.bare fault =
      ((finishPlainText node content fault).1.bare, (finishPlainText node content fault).2) := by
  cases fault with
  | some fault => rw [finishPlainText, finishPlainText, Node.bare_replaceChild]
  | none =>
    simp only [finishPlainText, bare_unmark, Node.bare_replaceChild,
      Node.bare_prune isPlaceholderStyle_bare]

theorem fillPlainText_bare (tag : String) (replaceLineBreaks : Bool) (value : String)
    (node : Node) :
    fillPlainText tag replaceLineBreaks value node.bare =
      ((fillPlainText tag replaceLineBreaks value node).1.bare,
        (fillPlainText tag replaceLineBreaks value node).2) := by
  rw [fillPlainText_eq, fillPlainText_eq, content?_bare]
  cases content? node with
  | none => rfl
  | some content =>
    simp only [Option.map_some, Node.named_bare, List.length_map, writeArea_bare]
    split
    · rfl
    · cases writeArea (segments replaceLineBreaks value) content with
      | none => rfl
      | some area => simp only [Option.map_some, finishPlainText_bare]

/-! ### Rich text -/

theorem isPlainTextOnly_bare (node : Node) : isPlainTextOnly node.bare = isPlainTextOnly node := by
  rw [isPlainTextOnly, Node.elements_bare, Node.any_bare (Node.isNamed_bare _)]
  rfl

section Rendered

variable {inParagraph : Bool} {blocks : List Block} {rendered : List Node}

theorem bare_of_render (made : Block.render inParagraph blocks = .ok rendered) :
    rendered.map Node.bare = rendered :=
  map_bare_of_isMadeOf fun node member =>
    (takes_render made ⟨none, inParagraph⟩ rfl node member).isMadeOf

theorem bare_ensureParagraph (cell : Node) :
    (ensureParagraph cell).bare = ensureParagraph cell.bare := by
  rw [ensureParagraph, ensureParagraph, Node.child?_bare, Option.isSome_map]
  split
  · rfl
  · rw [Node.bare_append]
    rfl

variable (fixed : rendered.map Node.bare = rendered)
include fixed

theorem bare_replaceContent (node : Node) :
    (replaceContent rendered node).bare = replaceContent rendered node.bare := by
  rw [replaceContent, replaceContent, Node.bare_withChildren, List.map_append, fixed,
    Node.childrenNamed_bare]

theorem bare_placeRendered (content : Node) :
    (placeRendered inParagraph rendered content).bare =
      placeRendered inParagraph rendered content.bare := by
  rw [placeRendered, placeRendered]
  split
  · exact bare_replaceContent fixed content
  · rw [Node.children_bare, Node.updateFirstOf?_bare fun cell => ?_]
    · cases Node.updateFirstOf? Word.cell _ content.children with
      | none => exact bare_replaceContent fixed content
      | some children => exact Node.bare_withChildren content children
    · rw [bare_ensureParagraph, bare_replaceContent fixed]

theorem bare_fillRichText (content node : Node) :
    (fillRichText inParagraph rendered content node).bare =
      fillRichText inParagraph rendered content.bare node.bare := by
  rw [fillRichText, fillRichText, bare_unmark, Node.bare_replaceChild, bare_placeRendered fixed]

end Rendered

end TemplateFill.Control
